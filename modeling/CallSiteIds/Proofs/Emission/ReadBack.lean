import CallSiteIds.Proofs.Emission.TwoStates
import CallSiteIds.Proofs.Source.Identifiers
import CallSiteIds.Proofs.Source.Units

/-!
# Generated files are read back to the manifest

The file that valid records with plain names give is well formed, and its tagged methods are the
records of the manifest: each with its name, and with one tag, which says where the call stands or
repeats the token of the host (`taggedMethods_source`).
-/

set_option autoImplicit false

namespace CallSiteIds

open Source

/-! ## Plain records -/

/-- A record whose names are plain. -/
structure CallSiteRecord.IsPlain (r : CallSiteRecord) : Prop where
  targetType : IsDotted r.targetType
  methodName : IsPlainName r.methodName
  returnType : IsPlainType r.returnType
  parameters : ∀ p ∈ r.parameters, IsPlainParameter p

/-- A record whose tag holds no null character: it shows a token, which is escaped, or a path
without one. -/
def CallSiteRecord.IsReadable (r : CallSiteRecord) : Prop :=
  r.interceptsData = none → '\x00' ∉ r.location.path.toList

/-- An identifier with an underscore and a number behind is an identifier that means nothing. -/
theorem isPlainName_numbered {name : String} (identifier : isIdentifier name.toList = true)
    (n : Nat) : IsPlainName (name ++ "_" ++ Decimal.integerString n) := by
  have text : (name ++ "_" ++ Decimal.integerString n).toList =
      name.toList ++ '_' :: Decimal.naturalText n := by
    simp [Decimal.integerString, Decimal.integerText]
  have digits : ∀ c ∈ Decimal.naturalText n, isNameChar c = true := by
    intro c mem
    have digit := Decimal.isDigit_of_mem_naturalText mem
    simp [isNameChar, Char.isAlphanum, digit]
  constructor
  · rw [text]
    generalize name.toList = cs at identifier
    cases cs with
    | nil => cases identifier
    | cons c cs =>
      simp only [isIdentifier, Bool.and_eq_true, List.all_eq_true, List.cons_append] at identifier ⊢
      refine ⟨identifier.1, fun d mem => ?_⟩
      rcases List.mem_append.1 mem with mem | mem
      · exact identifier.2 d mem
      · rcases List.mem_cons.1 mem with rfl | mem
        · decide
        · exact digits d mem
  · intro mem
    have each : ∀ w ∈ meaningfulWords, '_' ∉ w.toList := by decide +kernel
    apply each _ mem
    rw [text]
    simp

namespace CallSiteRecord

variable {r : CallSiteRecord} {assignments : List LiteralAssignment}

theorem IsValid.parameters_ne_nil (valid : r.IsValid) : r.parameters ≠ [] := by
  obtain ⟨m, marked⟩ := List.exists_mem_of_ne_nil _ valid.marked
  intro none
  have inRange := valid.inRange m marked
  rw [none] at inRange
  cases inRange

/-- A valid record with plain names gives a routine that can be read back. -/
theorem IsPlain.isPlain_routine (plain : r.IsPlain) (readable : r.IsReadable) (valid : r.IsValid)
    (h : r.literals = .ok assignments) (n : Nat) : (r.routine n assignments).IsPlain where
  name := by
    have identifier : isIdentifier (String.ofList (toIdentifier r.methodName.toList)).toList :=
      by rw [String.toList_ofList, isIdentifier_toIdentifier]
    exact isPlainName_numbered identifier n
  returnType := plain.returnType
  nonempty := by
    have some := valid.parameters_ne_nil
    unfold routine
    simp [some]
  parameters := by
    intro t mem
    rcases List.mem_append.1 mem with mem | mem
    · split at mem
      · cases mem
      · rw [List.mem_singleton.1 mem]
        exact isWrittenAs_receiver plain.targetType
    · obtain ⟨p, inside, rfl⟩ := List.mem_map.1 mem
      exact (plain.parameters p inside).isWrittenAs
  body := by
    refine Routine.isPlain_body (isWrittenAs_callee plain.targetType plain.methodName _) ?_ ?_
    · intro none
      have guard := guard_routine h n
      rw [Body.written, none] at guard
      exact markedNames_ne_nil valid guard.symm
    · intro f mem
      obtain ⟨⟨p, k⟩, inside, rfl⟩ := List.mem_map.1 mem
      exact (plain.parameters p (List.fst_mem_of_mem_zipIdx inside)).name
  tag := ⟨_, rfl, isTagArguments_tagArguments _ _ _ readable⟩

end CallSiteRecord

/-! ## Generated files -/

namespace Emission

/-- Valid records are emitted one after the other, each as a routine with its manifest record. -/
theorem exists_emitFrom {rs : List CallSiteRecord} (valid : ∀ r ∈ rs, r.IsValid) (index : Nat) :
    ∃ pairs : List (Routine × InterceptRecord),
      emitFrom index rs = pairs.map (fun x => Emitted.routine x.1 x.2) ∧
      List.Forall₂ (fun r x => ∃ n, IsEmittedAs r n x.1 x.2) rs pairs := by
  induction rs generalizing index with
  | nil => exact ⟨[], rfl, .nil⟩
  | cons r rs ih =>
    obtain ⟨first, valid⟩ := List.forall_mem_cons.1 valid
    obtain ⟨made, i, emitted⟩ := first.exists_emitted index
    obtain ⟨pairs, later, each⟩ := ih valid (index + 1)
    refine ⟨(made, i) :: pairs, ?_, .cons ⟨index, isEmittedAs_of_ofRecord emitted⟩ each⟩
    rw [emitFrom, emitted, later]
    rfl

theorem routines_of_pairs (options : UnitOptions) (pairs : List (Routine × InterceptRecord)) :
    (Emission.mk options (pairs.map fun x => Emitted.routine x.1 x.2)).routines =
      pairs.map Prod.fst := by
  rw [routines, List.filterMap_map]
  exact List.filterMap_eq_map_iff_forall_eq_some.2 fun x _ => rfl

theorem intercepts_of_pairs (options : UnitOptions) (pairs : List (Routine × InterceptRecord)) :
    (Emission.mk options (pairs.map fun x => Emitted.routine x.1 x.2)).intercepts =
      pairs.map Prod.snd := by
  rw [intercepts, List.filterMap_map]
  exact List.filterMap_eq_map_iff_forall_eq_some.2 fun x _ => rfl

/-- The records and the routines of a file, with the manifest records. -/
theorem exists_pairs (options : UnitOptions) {rs : List CallSiteRecord}
    (valid : ∀ r ∈ rs, r.IsValid) :
    ∃ pairs : List (Routine × InterceptRecord),
      (ofRecords options rs).routines = pairs.map Prod.fst ∧
      (ofRecords options rs).intercepts = pairs.map Prod.snd ∧
      List.Forall₂ (fun r x => ∃ n, IsEmittedAs r n x.1 x.2) rs pairs := by
  obtain ⟨pairs, emitted, each⟩ := exists_emitFrom valid 0
  have whole : ofRecords options rs = ⟨options, pairs.map fun x => Emitted.routine x.1 x.2⟩ := by
    rw [ofRecords, emitted]
  exact ⟨pairs, whole ▸ routines_of_pairs options pairs, whole ▸ intercepts_of_pairs options pairs,
    each⟩

end Emission

/-- The arguments of a tag are those that the tag was written with. -/
theorem arguments_eq_of_tag {l : SourceLocation} {data : Option String} {arguments : String}
    (same : tagText l data = "[" ++ tagAttribute ++ arguments ++ "]") :
    arguments = tagArguments l.path l.line l.column data := by
  rw [tagText, String.append_left_inj, String.append_right_inj] at same
  exact same.symm

/-- A method that was read back from the routine of a record has its name and its tag. -/
theorem IsEmittedAs.eq_of_isFoundAs {r : CallSiteRecord} {n : Nat} {made : Routine}
    {i : InterceptRecord} {found : String × List String} (emitted : IsEmittedAs r n made i)
    (isFound : made.IsFoundAs found) :
    found = (i.routineName,
      [tagArguments r.location.path r.location.line r.location.column i.interceptsData]) := by
  obtain ⟨arguments, tag, rfl⟩ := isFound
  have written : made.tag = tagText r.location r.interceptsData := by
    rw [emitted.routine]
    rfl
  have data : i.interceptsData = r.interceptsData := by
    rw [emitted.intercept]
    rfl
  rw [emitted.routineName, data, arguments_eq_of_tag (written.symm.trans tag)]

section Pairs

variable {rs : List CallSiteRecord} {pairs : List (Routine × InterceptRecord)}
  (each : List.Forall₂ (fun r x => ∃ n, IsEmittedAs r n x.1 x.2) rs pairs)

include each

/-- The routines of valid records with plain names can be read back. -/
theorem isPlain_of_pairs (valid : ∀ r ∈ rs, r.IsValid) (plain : ∀ r ∈ rs, r.IsPlain)
    (readable : ∀ r ∈ rs, r.IsReadable) : ∀ made ∈ pairs.map Prod.fst, made.IsPlain := by
  induction each with
  | nil => simp
  | cons first _ ih =>
    obtain ⟨n, emitted⟩ := first
    obtain ⟨validFirst, valid⟩ := List.forall_mem_cons.1 valid
    obtain ⟨plainFirst, plain⟩ := List.forall_mem_cons.1 plain
    obtain ⟨readableFirst, readable⟩ := List.forall_mem_cons.1 readable
    refine List.forall_mem_cons.2 ⟨?_, ih valid plain readable⟩
    rw [emitted.routine]
    exact plainFirst.isPlain_routine readableFirst validFirst emitted.literals n

/-- What is read back from the routines of records are their names and their tags. -/
theorem eq_of_areFound {found : List (String × List String)}
    (areFound : List.Forall₂ Routine.IsFoundAs (pairs.map Prod.fst) found) :
    found = List.zipWith
      (fun r i => (i.routineName,
        [tagArguments r.location.path r.location.line r.location.column i.interceptsData]))
      rs (pairs.map Prod.snd) := by
  induction each generalizing found with
  | nil => exact List.forall₂_nil_left_iff.1 areFound
  | cons first _ ih =>
    obtain ⟨n, emitted⟩ := first
    obtain ⟨here, later, isFound, others, rfl⟩ := List.forall₂_cons_left_iff.1 areFound
    rw [emitted.eq_of_isFoundAs isFound, ih others]
    rfl

end Pairs

/-- The file that valid records with plain names give is well formed, and its tagged methods are
the routines of the manifest in order: each with its name, and with one tag for its call site. -/
theorem taggedMethods_source {options : UnitOptions} (named : options.IsPlain)
    {rs : List CallSiteRecord} (valid : ∀ r ∈ rs, r.IsValid) (plain : ∀ r ∈ rs, r.IsPlain)
    (readable : ∀ r ∈ rs, r.IsReadable) :
    ∃ methods,
      taggedMethods? (Emission.ofRecords options rs).source.toList = some methods ∧
      (Emission.ofRecords options rs).intercepts.length = rs.length ∧
      methods.map (fun m => (m.name, m.tags)) =
        List.zipWith
          (fun r i => (i.routineName,
            [tagArguments r.location.path r.location.line r.location.column i.interceptsData]))
          rs (Emission.ofRecords options rs).intercepts := by
  obtain ⟨pairs, routines, intercepts, each⟩ := Emission.exists_pairs options valid
  obtain ⟨methods, read, areFound⟩ :=
    exists_taggedMethods named (isPlain_of_pairs each valid plain readable)
  refine ⟨methods, ?_, ?_, ?_⟩
  · rw [Emission.source, routines]
    exact read
  · rw [intercepts, List.length_map]
    exact each.length_eq.symm
  · rw [intercepts]
    exact eq_of_areFound each areFound

/-- A call of an instance method in a file whose name holds quotes and a line feed. -/
def quotedCall : CallSiteRecord where
  targetType := "App.Store"
  methodName := "Save"
  returnType := "App.Key?"
  isStatic := false
  location := ⟨"a \"b\"\n.cs", 3, 7⟩
  locationKey := "a \"b\"\n.cs:3:7"
  interceptsData := none
  parameters := [⟨"class", "string?", true, none⟩, ⟨"size", "int", false, none⟩]
  markedParameters := [⟨0, .settled .htmlId, some "\\", true⟩]

theorem isPlain_quotedCall : quotedCall.IsPlain where
  targetType := isDotted_intercalate "App" ["Store"] (by decide)
  methodName := by decide
  returnType := ⟨_, .inr (isDotted_intercalate "App" ["Key"]
    (by decide)), .inr rfl⟩
  parameters := by
    rintro p (_ | ⟨_, _ | ⟨_, ⟨⟩⟩⟩)
    · exact ⟨by decide, (isPlainType_of_predefined "string" (by decide +kernel)).2,
        by decide⟩
    · exact ⟨by decide, (isPlainType_of_predefined "int" (by decide +kernel)).1, by decide⟩

/-- A call of a method without a result, whose token holds a quote and a null character. -/
def tokenCall : CallSiteRecord where
  targetType := "Tools"
  methodName := "Run"
  returnType := "void"
  isStatic := true
  location := ⟨"b.cs", 0, 0⟩
  locationKey := "b.cs:0:0"
  interceptsData := some "\"t\x00"
  parameters := [⟨"id", "string", true, some "null"⟩]
  markedParameters := [⟨0, .settled .guid, none, true⟩]

theorem isPlain_tokenCall : tokenCall.IsPlain where
  targetType := isDotted_intercalate "Tools" [] (by decide)
  methodName := by decide
  returnType := (isPlainType_of_predefined "void" (by decide)).1
  parameters := by
    rintro p (_ | ⟨_, ⟨⟩⟩)
    exact ⟨by decide, (isPlainType_of_predefined "string" (by decide +kernel)).1, by decide⟩

/-- Both calls stand in one file, each with its own tag. -/
theorem taggedMethods_source_twoCalls :
    (UnitOptions.mk "App.Generated" "Calls" true).IsPlain ∧
      (∀ r ∈ [quotedCall, tokenCall], r.IsValid) ∧ (∀ r ∈ [quotedCall, tokenCall], r.IsPlain) ∧
      (∀ r ∈ [quotedCall, tokenCall], r.IsReadable) ∧
      ∃ methods,
        taggedMethods? (Emission.ofRecords ⟨"App.Generated", "Calls", true⟩
          [quotedCall, tokenCall]).source.toList = some methods ∧
        methods.map (fun m => (m.name, m.tags)) =
          [("Save_0", ["(@\"a \"\"b\"\"\n.cs\", 3, 7)"]), ("Run_1", ["(1, \"\\\"t\\0\")"])] := by
  have named : (UnitOptions.mk "App.Generated" "Calls" true).IsPlain :=
    ⟨isDotted_intercalate "App" ["Generated"] (by decide), by decide +kernel⟩
  have valid : ∀ r ∈ [quotedCall, tokenCall], r.IsValid := by
    simp only [List.forall_mem_cons]
    refine ⟨⟨List.cons_ne_nil _ _, ?_, by decide, ?_⟩, ⟨List.cons_ne_nil _ _, ?_, by decide, ?_⟩,
      by simp⟩
    all_goals simp [quotedCall, tokenCall]
  have plain : ∀ r ∈ [quotedCall, tokenCall], r.IsPlain := by
    simp only [List.forall_mem_cons]
    exact ⟨isPlain_quotedCall, isPlain_tokenCall, by simp⟩
  have readable : ∀ r ∈ [quotedCall, tokenCall], r.IsReadable := by
    unfold CallSiteRecord.IsReadable
    decide
  obtain ⟨methods, read, -, found⟩ := taggedMethods_source named valid plain readable
  refine ⟨named, valid, plain, readable, methods, read, found.trans ?_⟩
  decide

end CallSiteIds
