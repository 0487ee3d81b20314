import CallSiteIds.Proofs.Path.Names

/-!
# Reading a path by its segments

What a path means is said here without its reader: a text is cut at its slashes, and the segments
are followed one after the other, where empty ones and single dots stay, two dots go up unless
there is nothing above, and every other segment goes down.  Reading and resolving a path comes to
the same (`lexicallyAt_iff`), also for two texts that are joined by a slash
(`lexicallyAt_join_iff`).
-/

set_option autoImplicit false

namespace CallSiteIds

/-! ## Segments -/

/-- The segments of a text: what stands between its slashes. -/
structure IsCut (text : String) (segments : List String) : Prop where
  some : segments ≠ []
  joined : "/".intercalate segments = text
  whole : ∀ segment ∈ segments, '/' ∉ segment.toList

/-- The place that segments lead to from another: empty ones and single dots stay, two dots go up
unless there is nothing above, and every other one goes down. -/
inductive Leads : Place → List String → Place → Prop
  | done {here : Place} : Leads here [] here
  | stay {here there : Place} {segment : String} {rest : List String} :
      segment = "" ∨ segment = "." → Leads here rest there → Leads here (segment :: rest) there
  | up {here there : Place} {name : String} {rest : List String} :
      Leads here rest there → Leads (here ++ [name]) (".." :: rest) there
  | top {there : Place} {rest : List String} : Leads [] rest there → Leads [] (".." :: rest) there
  | down {here there : Place} {segment : String} {rest : List String} :
      segment ∉ ["", ".", ".."] → Leads (here ++ [segment]) rest there →
        Leads here (segment :: rest) there

/-- The place that a text names from the top by its segments. -/
def LexicallyAt (text : String) (place : Place) : Prop :=
  ∃ segments, IsCut text segments ∧ Leads [] segments place

/-- A text is cut in one way. -/
theorem isCut_iff {text : String} {segments : List String} :
    IsCut text segments ↔ segments = (Text.splitAll '/' text.toList).map String.ofList := by
  constructor
  · rintro ⟨some, rfl, whole⟩
    rw [String.toList_intercalate]
    induction segments with
    | nil => exact absurd rfl some
    | cons segment rest ih =>
      have plain := Text.splitAll_of_notMem (whole segment List.mem_cons_self)
      cases rest with
      | nil => simp [plain]
      | cons next rest =>
        have later := ih (List.cons_ne_nil _ _) fun s mem => whole s (List.mem_cons_of_mem _ mem)
        have joined : List.intercalate "/".toList ((segment :: next :: rest).map String.toList) =
            segment.toList ++ '/' :: List.intercalate "/".toList
              ((next :: rest).map String.toList) := by
          simp [List.intercalate_cons_cons]
        rw [joined, Text.splitAll_append_sep, plain, List.singleton_append, List.map_cons,
          String.ofList_toList, ← later]
  · rintro rfl
    refine ⟨?_, ?_, ?_⟩
    · simp [Text.splitAll_ne_nil]
    · rw [← String.toList_inj, String.toList_intercalate, List.map_map]
      simpa using Text.intercalate_splitAll '/' text.toList
    · intro segment mem
      obtain ⟨part, inside, rfl⟩ := List.mem_map.1 mem
      rw [String.toList_ofList]
      exact Text.notMem_of_mem_splitAll inside

namespace Path

theorem isStep_eq_false_iff {part : String} : isStep part = false ↔ part = "" ∨ part = "." := by
  unfold isStep
  by_cases empty : part = "" <;> by_cases dot : part = "." <;> simp [empty, dot]

theorem follow_cons (here : Place) (part : String) (rest : List String) :
    follow here (part :: rest) = follow (step here part) rest := rfl

theorem step_above_concat (here : Place) (name : String) : step (here ++ [name]) ".." = here := by
  simp [step, above]

theorem step_of_ne_above {part : String} (name : part ≠ "..") (here : Place) :
    step here part = here ++ [part] :=
  if_neg name

/-- Segments lead where the steps among them lead. -/
theorem leads_iff {here there : Place} {segments : List String} :
    Leads here segments there ↔ follow here (segments.filter isStep) = there := by
  constructor
  · intro leads
    induction leads with
    | done => rfl
    | stay dot _ ih =>
      rw [List.filter_cons_of_neg (by simp [isStep_eq_false_iff.2 dot]), ih]
    | up _ ih => rw [List.filter_cons_of_pos (by decide), follow_cons, step_above_concat, ih]
    | top _ ih =>
      rw [List.filter_cons_of_pos (by decide), follow_cons]
      exact ih
    | down name _ ih =>
      simp only [List.mem_cons, List.not_mem_nil, or_false, not_or] at name
      rw [List.filter_cons_of_pos (by simp [isStep, name]), follow_cons,
        step_of_ne_above name.2.2, ih]
  · rintro rfl
    induction segments generalizing here with
    | nil => exact .done
    | cons segment rest ih =>
      cases kept : isStep segment with
      | false =>
        rw [List.filter_cons_of_neg (by simp [kept])]
        exact .stay (isStep_eq_false_iff.1 kept) ih
      | true =>
        rw [List.filter_cons_of_pos kept, follow_cons]
        by_cases up : segment = ".."
        · subst up
          rcases List.eq_nil_or_concat here with rfl | ⟨front, last, rfl⟩
          · exact .top ih
          · rw [List.concat_eq_append, step_above_concat]
            exact .up ih
        · rw [step_of_ne_above up]
          refine .down ?_ ih
          have plain : ¬(segment = "" ∨ segment = ".") := by
            rw [← isStep_eq_false_iff, kept]
            decide
          simp_all

/-! ## Paths -/

/-- The place that the segments of a text lead to is that of its path. -/
theorem lexicallyAt_iff {text : String} {place : Place} :
    LexicallyAt text place ↔ follow [] (ofString text).parts = place := by
  simp only [LexicallyAt, isCut_iff, exists_eq_left, leads_iff]
  rfl

/-- What follows a slash is read by itself. -/
theorem parts_ofString_join (front back : String) :
    (ofString (front ++ "/" ++ back)).parts = (ofString front).parts ++ (ofString back).parts := by
  have joined : (front ++ "/" ++ back).toList = front.toList ++ '/' :: back.toList := by simp
  simp only [ofString]
  rw [joined, Text.splitAll_append_sep, List.map_append, List.filter_append]

/-- Joined texts name the place that the second leads to from the place of the first. -/
theorem lexicallyAt_join_iff {front back : String} {start place : Place}
    (at' : LexicallyAt front start) :
    LexicallyAt (front ++ "/" ++ back) place ↔ follow start (ofString back).parts = place := by
  rw [lexicallyAt_iff] at *
  rw [parts_ofString_join, follow_append, at']

/-- A path starts at the top when its text starts with a slash. -/
theorem isAbsolute_ofString_iff {text : String} :
    (ofString text).isAbsolute = true ↔ text.toList.head? = some '/' := by
  unfold isAbsolute ofString
  cases text.toList with
  | nil => simp
  | cons c rest =>
    by_cases slash : c = '/'
    · simp only [slash, List.takeWhile_cons_of_pos, beq_self_eq_true, List.length_cons,
        Nat.add_one_ne_zero, if_false, List.head?_cons, iff_true]
      split <;> rfl
    · simp [slash]

/-- A null character in a text is one in a part of its path. -/
theorem any_holdsNull_parts_iff {text : String} :
    (ofString text).parts.any holdsNull = true ↔ '\x00' ∈ text.toList := by
  have whole : '\x00' ≠ '/' := by decide
  rw [Text.mem_iff_mem_splitAll whole, List.any_eq_true]
  simp only [holdsNull, List.contains_eq_mem, decide_eq_true_eq]
  constructor
  · rintro ⟨part, mem, null⟩
    obtain ⟨mem, -⟩ := List.mem_filter.1 mem
    obtain ⟨cs, inside, rfl⟩ := List.mem_map.1 mem
    exact ⟨cs, inside, by simpa using null⟩
  · rintro ⟨cs, inside, null⟩
    refine ⟨String.ofList cs, List.mem_filter.2 ⟨List.mem_map_of_mem inside, ?_⟩, by simpa⟩
    -- A part with a null character is neither empty nor a dot.
    rw [← Bool.not_eq_false, isStep_eq_false_iff]
    rintro (empty | dot)
    · have empty := congrArg String.toList empty
      simp_all
    · have dot := congrArg String.toList dot
      rw [String.toList_ofList] at dot
      rw [dot] at null
      exact absurd null (by decide)

theorem resolve_of_plain {text : String} (plain : '\x00' ∉ text.toList) (start : Place) :
    (ofString text).resolve start =
      .ok (follow (if (ofString text).isAbsolute then [] else start) (ofString text).parts) := by
  rw [resolve, if_neg]
  rwa [any_holdsNull_parts_iff]

end Path

end CallSiteIds
