import CallSiteIds.Marker
import CallSiteIds.Proofs.Text.Splitting
import CallSiteIds.Proofs.Text.Trimming
import Mathlib.Data.List.Nodup

/-!
# What a marker asks for

The arguments of a marker fill slots, and the form in which an argument is written leaves no
trace: what is decoded depends on the list of slot names with their values, in any order
(`decode_eq_ok_iff`).
-/

set_option autoImplicit false

namespace CallSiteIds.Marker

open Json (Value)
open Literal (Format)

/-! ## Arguments by name -/

/-- Named arguments with the first letter of each key in lower case. -/
def normalized (arguments : List (String × Value)) : List (List Char × Value) :=
  arguments.map fun p => (Slot.lowerFirst p.1.toList, p.2)

/-- The arguments of an attribute with the names of the slots they are given for: positional ones
take the names of the slots in order, the named ones their own. -/
def given (a : AttributeDescriptor) : List (List Char × Value) :=
  (Slot.all.map fun s => s.name.toList).zip a.arguments ++
    normalized a.namedArguments

/-- A value that requests a format: the number of the format, or a text whose last part, blanks
at the ends and qualifiers aside, is one of its names. -/
inductive Requests : Value → Format → Prop where
  | number (f : Format) : Requests (.int f.code) f
  | name {s : String} {part name : List Char} {f : Format} (trimmed : Text.IsTrimmed s.toList part)
      (last : Text.IsLastPart '.' part name)
      (named : name = f.displayName.toList ∨ name = f.capitalName.toList) :
      Requests (.string s) f

/-- The value is given for the slot. -/
def Gives (arguments : List (List Char × Value)) (slot : Slot) (v : Value) : Prop :=
  (slot.name.toList, v) ∈ arguments

/-- Each argument is given for a slot, and no slot is given twice. -/
structure AreAssigned (arguments : List (List Char × Value)) : Prop where
  known : ∀ p ∈ arguments, ∃ slot : Slot, p.1 = slot.name.toList
  once : (arguments.map Prod.fst).Nodup

/-- Each value is of a kind that its slot takes. -/
structure HaveKinds (arguments : List (List Char × Value)) : Prop where
  format : ∀ v, Gives arguments .format v → ∃ f, Requests v f
  lead : ∀ v, Gives arguments .lead v → v = .null ∨ ∃ s, v = .string s
  deterministic : ∀ v, Gives arguments .deterministic v → ∃ b, v = .bool b

/-- What the arguments ask for, with the defaults where nothing is given. -/
structure AskFor (arguments : List (List Char × Value)) (config : Config) : Prop where
  format : (∃ v, Gives arguments .format v ∧ Requests v config.format) ∨
    (∀ v, ¬Gives arguments .format v) ∧ config.format = .guid
  lead : (∃ s, Gives arguments .lead (.string s) ∧ config.lead = some s) ∨
    (∀ v, Gives arguments .lead v → v = .null) ∧ config.lead = none
  deterministic : Gives arguments .deterministic (.bool config.deterministic) ∨
    (∀ v, ¬Gives arguments .deterministic v) ∧ config.deterministic = true

theorem AreAssigned.unique {arguments : List (List Char × Value)} (assigned : AreAssigned arguments)
    {slot : Slot} {v w : Value} (hv : Gives arguments slot v) (hw : Gives arguments slot w) :
    v = w :=
  congrArg Prod.snd (List.inj_on_of_nodup_map assigned.once hv hw rfl)

/-- A slot that takes some values, with a default for the case that nothing is given, asks for
something exactly when it takes what is given. -/
theorem exists_or_default_iff {α : Type} {arguments : List (List Char × Value)}
    (assigned : AreAssigned arguments) {slot : Slot} {Takes : Value → α → Prop} {d : α} :
    (∃ x, (∃ v, Gives arguments slot v ∧ Takes v x) ∨
        (∀ v, ¬Gives arguments slot v) ∧ x = d) ↔
      ∀ v, Gives arguments slot v → ∃ x, Takes v x := by
  constructor
  · rintro ⟨x, ⟨w, other, takes⟩ | ⟨none, -⟩⟩ v gives
    · exact ⟨x, assigned.unique other gives ▸ takes⟩
    · exact absurd gives (none v)
  · intro takes
    by_cases given : ∃ v, Gives arguments slot v
    · obtain ⟨v, gives⟩ := given
      obtain ⟨x, taken⟩ := takes v gives
      exact ⟨x, Or.inl ⟨v, gives, taken⟩⟩
    · exact ⟨d, Or.inr ⟨not_exists.1 given, rfl⟩⟩

/-- A lead that is null counts as none. -/
theorem exists_lead_iff {arguments : List (List Char × Value)} (assigned : AreAssigned arguments) :
    (∃ l : Option String, (∃ s, Gives arguments .lead (.string s) ∧ l = some s) ∨
        (∀ v, Gives arguments .lead v → v = .null) ∧ l = none) ↔
      ∀ v, Gives arguments .lead v → v = .null ∨ ∃ s, v = .string s := by
  constructor
  · rintro ⟨l, ⟨s, other, -⟩ | ⟨null, -⟩⟩ v gives
    · exact Or.inr ⟨s, assigned.unique gives other⟩
    · exact Or.inl (null v gives)
  · intro kinds
    by_cases given : ∃ s, Gives arguments .lead (.string s)
    · obtain ⟨s, gives⟩ := given
      exact ⟨some s, Or.inl ⟨s, gives, rfl⟩⟩
    · refine ⟨none, Or.inr ⟨?_, rfl⟩⟩
      intro v gives
      rcases kinds v gives with null | ⟨s, rfl⟩
      · exact null
      · exact absurd ⟨s, gives⟩ given

/-- Arguments ask for something exactly when their values are of the right kinds. -/
theorem exists_askFor_iff {arguments : List (List Char × Value)}
    (assigned : AreAssigned arguments) :
    (∃ config, AskFor arguments config) ↔ HaveKinds arguments := by
  have format : _ ↔ ∀ v, Gives arguments .format v → ∃ f, Requests v f :=
    exists_or_default_iff assigned (d := .guid)
  have flag : _ ↔ ∀ v, Gives arguments .deterministic v → ∃ b, v = .bool b :=
    exists_or_default_iff assigned (d := true)
  simp only [exists_eq_right] at flag
  constructor
  · rintro ⟨config, asked⟩
    exact ⟨format.1 ⟨_, asked.format⟩, (exists_lead_iff assigned).1 ⟨_, asked.lead⟩,
      flag.1 ⟨_, asked.deterministic⟩⟩
  · rintro ⟨formats, leads, flags⟩
    obtain ⟨f, format⟩ := format.2 formats
    obtain ⟨l, lead⟩ := (exists_lead_iff assigned).2 leads
    obtain ⟨b, deterministic⟩ := flag.2 flags
    exact ⟨⟨f, l, b⟩, format, lead, deterministic⟩

/-! ## Order -/

section

variable {arguments arguments' : List (List Char × Value)} (perm : arguments.Perm arguments')

include perm

theorem gives_perm {slot : Slot} {v : Value} :
    Gives arguments slot v ↔ Gives arguments' slot v :=
  perm.mem_iff

theorem areAssigned_perm : AreAssigned arguments ↔ AreAssigned arguments' := by
  constructor
  · rintro ⟨known, once⟩
    exact ⟨fun p mem => known p (perm.mem_iff.2 mem), (perm.map Prod.fst).nodup_iff.1 once⟩
  · rintro ⟨known, once⟩
    exact ⟨fun p mem => known p (perm.mem_iff.1 mem), (perm.map Prod.fst).nodup_iff.2 once⟩

/-- What arguments ask for does not depend on their order. -/
theorem askFor_perm {config : Config} : AskFor arguments config ↔ AskFor arguments' config := by
  constructor
  · rintro ⟨format, lead, flag⟩
    simp only [gives_perm perm] at format lead flag
    exact ⟨format, lead, flag⟩
  · rintro ⟨format, lead, flag⟩
    simp only [← gives_perm perm] at format lead flag
    exact ⟨format, lead, flag⟩

end

/-! ## Single values -/

theorem ofCode?_eq_some_iff {n : Int} {f : Format} :
    Format.ofCode? n = some f ↔ n = f.code := by
  constructor
  · intro found
    have same := List.find?_some found
    exact (eq_of_beq same).symm
  · rintro rfl
    exact Format.ofCode?_code f

theorem ofName?_eq_some_iff {name : List Char} {f : Format} :
    Format.ofName? name = some f ↔ name = f.displayName.toList ∨ name = f.capitalName.toList := by
  constructor
  · intro found
    have same := List.find?_some found
    rw [Bool.or_eq_true, beq_iff_eq, beq_iff_eq] at same
    exact same
  · rintro (rfl | rfl) <;> cases f <;> decide

theorem ofString_eq_ok_iff {s : String} {f : Format} :
    Format.ofString s = .ok f ↔
      Format.ofName? (Text.afterLast '.' (Text.trim s.toList)) = some f := by
  rw [Format.ofString]
  split <;> rename_i found <;> simp [found]

/-- A value is taken for the format that it requests. -/
theorem ofValue_eq_ok_iff {v : Value} {f : Format} : Format.ofValue v = .ok f ↔ Requests v f := by
  constructor
  · intro h
    unfold Format.ofValue at h
    split at h
    · split at h
      · rename_i n g found
        injection h with h
        subst h
        obtain rfl := ofCode?_eq_some_iff.1 found
        exact .number g
      · cases h
    · rename_i s
      rw [ofString_eq_ok_iff, ofName?_eq_some_iff] at h
      exact .name (Text.isTrimmed_iff.2 rfl) (Text.isLastPart_iff.2 rfl) h
    · cases h
  · intro requests
    cases requests with
    | number => rw [Format.ofValue, Format.ofCode?_code]
    | name trimmed last named =>
      obtain rfl := Text.isTrimmed_iff.1 trimmed
      obtain rfl := Text.isLastPart_iff.1 last
      rw [Format.ofValue, ofString_eq_ok_iff, ofName?_eq_some_iff]
      exact named

theorem readFormat_eq_ok_iff {v? : Option Value} {f : Format} :
    readFormat v? = .ok f ↔ (∃ v, v? = some v ∧ Requests v f) ∨ v? = none ∧ f = .guid := by
  cases v? with
  | none => simp [readFormat, eq_comm]
  | some v =>
    rw [readFormat]
    cases read : Format.ofValue v with
    | error e =>
      have none : ¬Requests v f := by
        rw [← ofValue_eq_ok_iff, read]
        simp
      simp [none]
    | ok g =>
      have same : Requests v f ↔ g = f := by
        rw [← ofValue_eq_ok_iff, read, Except.ok.injEq]
      simp [same]

theorem readLead_eq_ok_iff {v? : Option Value} {l : Option String} :
    readLead v? = .ok l ↔
      (∃ s, v? = some (.string s) ∧ l = some s) ∨ (∀ v ∈ v?, v = .null) ∧ l = none := by
  cases v? with
  | none => simp [readLead, eq_comm]
  | some v => cases v <;> simp [readLead, eq_comm]

theorem readFlag_eq_ok_iff {v? : Option Value} {b : Bool} :
    readFlag v? = .ok b ↔ v? = some (.bool b) ∨ v? = none ∧ b = true := by
  cases v? with
  | none => simp [readFlag, eq_comm]
  | some v => cases v <;> simp [readFlag]

/-! ## Assigning slots -/

theorem Slot.name_injective {s t : Slot} (h : s.name.toList = t.name.toList) : s = t := by
  have each : ∀ s t : Slot, s.name.toList = t.name.toList → s = t := by
    intro s t
    cases s <;> cases t <;> decide
  exact each s t h

theorem Slot.ofKey?_eq_some_iff {key : String} {s : Slot} :
    ofKey? key = some s ↔ lowerFirst key.toList = s.name.toList := by
  constructor
  · intro found
    have same := List.find?_some found
    exact (eq_of_beq same).symm
  · intro same
    rw [ofKey?, same]
    cases s <;> decide

/-- An assignment with the names of its slots. -/
def named (s : Assignment) : List (List Char × Value) :=
  s.map fun p => (p.1.name.toList, p.2)

theorem gives_named_iff {s : Assignment} {slot : Slot} {v : Value} :
    Gives (named s) slot v ↔ (slot, v) ∈ s := by
  rw [Gives, named, List.mem_map]
  constructor
  · rintro ⟨⟨t, w⟩, mem, e⟩
    rw [Prod.mk.injEq] at e
    obtain ⟨same, rfl⟩ := e
    rw [← Slot.name_injective same]
    exact mem
  · intro mem
    exact ⟨_, mem, rfl⟩

theorem named_injective : Function.Injective named :=
  List.map_injective_iff.2 fun p q same => by
    rw [Prod.mk.injEq] at same
    exact Prod.ext (Slot.name_injective same.1) same.2

theorem map_fst_named (s : Assignment) :
    (named s).map Prod.fst = (s.map Prod.fst).map fun slot => slot.name.toList := by
  rw [named, List.map_map, List.map_map]
  rfl

theorem nodup_named_iff {s : Assignment} :
    ((named s).map Prod.fst).Nodup ↔ (s.map Prod.fst).Nodup := by
  rw [map_fst_named]
  exact List.nodup_map_iff fun _ _ same => Slot.name_injective same

/-- What an assignment holds for a slot that is filled once. -/
theorem get?_eq_some_iff {s : Assignment} (distinct : (s.map Prod.fst).Nodup) {slot : Slot}
    {v : Value} : s.get? slot = some v ↔ Gives (named s) slot v := by
  rw [gives_named_iff, Assignment.get?, Option.map_eq_some_iff]
  constructor
  · rintro ⟨⟨t, w⟩, found, rfl⟩
    have same := List.find?_some found
    rw [← (eq_of_beq same : t = slot)]
    exact List.mem_of_find?_eq_some found
  · intro mem
    cases found : s.find? fun p => p.1 == slot with
    | none => exact absurd mem (by simpa using List.find?_eq_none.1 found (slot, v))
    | some p =>
      have same := List.find?_some found
      have there := List.mem_of_find?_eq_some found
      have one := List.inj_on_of_nodup_map distinct there mem (eq_of_beq same)
      exact ⟨p, rfl, congrArg Prod.snd one⟩

theorem get?_eq_none_iff {s : Assignment} (distinct : (s.map Prod.fst).Nodup) {slot : Slot} :
    s.get? slot = none ↔ ∀ v, ¬Gives (named s) slot v := by
  rw [Option.eq_none_iff_forall_ne_some]
  exact forall_congr' fun v => not_congr (get?_eq_some_iff distinct)

theorem named_eq_cons_iff {s : Assignment} {slot : Slot} {v : Value}
    {rest : List (List Char × Value)} :
    named s = (slot.name.toList, v) :: rest ↔
      ∃ more, s = (slot, v) :: more ∧ named more = rest := by
  constructor
  · intro names
    cases s with
    | nil => cases names
    | cons p more =>
      rw [named, List.map_cons, List.cons.injEq, Prod.mk.injEq] at names
      obtain ⟨⟨same, rfl⟩, later⟩ := names
      exact ⟨more, by rw [← Slot.name_injective same], later⟩
  · rintro ⟨more, rfl, rfl⟩
    rfl

/-- An argument without a slot is not the first of an assignment. -/
theorem ofKey?_isSome_of_named {s : Assignment} {key : String} {v : Value}
    {rest : List (List Char × Value)}
    (names : named s = (Slot.lowerFirst key.toList, v) :: rest) :
    (Slot.ofKey? key).isSome = true := by
  cases s with
  | nil => cases names
  | cons p more =>
    rw [named, List.map_cons, List.cons.injEq, Prod.mk.injEq] at names
    rw [Slot.ofKey?_eq_some_iff.2 names.1.1.symm]
    rfl

theorem any_slot_iff {s : Assignment} {slot : Slot} :
    (s.any fun p => p.1 == slot) = true ↔ slot ∈ s.map Prod.fst := by
  simp [List.any_eq_true]

/-- Named arguments are assigned exactly when each has a slot and no slot is filled twice. -/
theorem assignNamed_eq_ok_iff {assigned result : Assignment} {arguments : List (String × Value)}
    (distinct : (assigned.map Prod.fst).Nodup) :
    assignNamed assigned arguments = .ok result ↔
      ∃ more, named more = normalized arguments ∧
        ((assigned ++ more).map Prod.fst).Nodup ∧ result = assigned ++ more := by
  induction arguments generalizing assigned with
  | nil =>
    rw [assignNamed, Except.ok.injEq]
    constructor
    · rintro rfl
      exact ⟨[], rfl, by simpa using distinct, by simp⟩
    · rintro ⟨more, none, -, rfl⟩
      obtain rfl : more = [] := List.map_eq_nil_iff.1 none
      rw [List.append_nil]
  | cons p rest ih =>
    obtain ⟨key, value⟩ := p
    have names : normalized ((key, value) :: rest) =
        (Slot.lowerFirst key.toList, value) :: normalized rest := rfl
    rw [assignNamed, names]
    cases slot? : Slot.ofKey? key with
    | none =>
      refine iff_of_false (by simp) ?_
      rintro ⟨more, names, -⟩
      have found := ofKey?_isSome_of_named names
      rw [slot?] at found
      cases found
    | some slot =>
      rw [Slot.ofKey?_eq_some_iff.1 slot?]
      simp only [named_eq_cons_iff]
      by_cases filled : slot ∈ assigned.map Prod.fst
      · rw [if_pos (any_slot_iff.2 filled)]
        refine iff_of_false (by simp) ?_
        rintro ⟨_, ⟨more, rfl, -⟩, once, -⟩
        rw [List.map_append, List.map_cons, List.nodup_append] at once
        exact once.2.2 slot filled slot List.mem_cons_self rfl
      · have further : ((assigned ++ [(slot, value)]).map Prod.fst).Nodup := by
          rw [List.map_append, List.map_singleton, ← List.concat_eq_append]
          exact distinct.concat filled
        rw [if_neg (any_slot_iff.not.2 filled), ih further]
        constructor
        · rintro ⟨more, later, once, rfl⟩
          exact ⟨_, ⟨more, rfl, later⟩, by simpa using once, by simp⟩
        · rintro ⟨_, ⟨more, rfl, later⟩, once, rfl⟩
          exact ⟨more, later, by simpa using once, by simp⟩

theorem named_zip (arguments : List Value) :
    named (Slot.all.zip arguments) =
      (Slot.all.map fun s => s.name.toList).zip arguments := by
  rw [List.zip_map_left]
  rfl

theorem nodup_zip (arguments : List Value) :
    ((Slot.all.zip arguments).map Prod.fst).Nodup := by
  rcases arguments with _ | ⟨v, _ | ⟨w, _ | ⟨x, rest⟩⟩⟩ <;> simp [Slot.all]

/-- All arguments are assigned exactly when there are no more positional ones than slots, each is
given for a slot and no slot is given twice. -/
theorem assign_eq_ok_iff {a : AttributeDescriptor} {s : Assignment} :
    assign a = .ok s ↔
      a.arguments.length ≤ 3 ∧ named s = given a ∧ (s.map Prod.fst).Nodup := by
  have three : Slot.all.length = 3 := rfl
  rw [assign, three]
  split
  · rename_i many
    exact iff_of_false (by simp) fun h => Nat.not_le.2 many h.1
  · rename_i few
    rw [assignNamed_eq_ok_iff (nodup_zip _)]
    constructor
    · rintro ⟨more, names, once, rfl⟩
      refine ⟨Nat.le_of_not_lt few, ?_, once⟩
      rw [given, ← names, ← named_zip, named, List.map_append]
      rfl
    · rintro ⟨-, names, once⟩
      rw [given, ← named_zip, named, List.map_eq_append_iff] at names
      obtain ⟨front, more, rfl, positional, later⟩ := names
      obtain rfl := named_injective positional
      exact ⟨more, later, once, rfl⟩

/-! ## Decoding -/

theorem ofAssignment_eq_ok_iff {s : Assignment} {config : Config} :
    Config.ofAssignment s = .ok config ↔
      readFormat (s.get? .format) = .ok config.format ∧ readLead (s.get? .lead) = .ok config.lead ∧
        readFlag (s.get? .deterministic) = .ok config.deterministic := by
  unfold Config.ofAssignment
  cases readFormat (s.get? .format) with
  | error e => simp [bind, Except.bind]
  | ok f =>
    cases readLead (s.get? .lead) with
    | error e => simp [bind, Except.bind]
    | ok l =>
      cases readFlag (s.get? .deterministic) with
      | error e => simp [bind, Except.bind]
      | ok b =>
        obtain ⟨f', l', b'⟩ := config
        simp [bind, Except.bind, pure, Except.pure]

/-- An assignment is read as what its names and values ask for. -/
theorem ofAssignment_eq_ok_iff_askFor {s : Assignment} (distinct : (s.map Prod.fst).Nodup)
    {config : Config} : Config.ofAssignment s = .ok config ↔ AskFor (named s) config := by
  have holds {slot : Slot} {v : Value} : s.get? slot = some v ↔ Gives (named s) slot v :=
    get?_eq_some_iff distinct
  have lacks {slot : Slot} : s.get? slot = none ↔ ∀ v, ¬Gives (named s) slot v :=
    get?_eq_none_iff distinct
  rw [ofAssignment_eq_ok_iff, readFormat_eq_ok_iff, readLead_eq_ok_iff, readFlag_eq_ok_iff]
  simp only [Option.mem_def, holds, lacks]
  exact ⟨fun h => ⟨h.1, h.2.1, h.2.2⟩, fun h => ⟨h.format, h.lead, h.deterministic⟩⟩

theorem exists_named_eq {arguments : List (List Char × Value)}
    (known : ∀ p ∈ arguments, ∃ slot : Slot, p.1 = slot.name.toList) :
    ∃ s, named s = arguments := by
  induction arguments with
  | nil => exact ⟨[], rfl⟩
  | cons p rest ih =>
    rw [List.forall_mem_cons] at known
    obtain ⟨slot, same⟩ := known.1
    obtain ⟨s, rfl⟩ := ih known.2
    exact ⟨(slot, p.2) :: s, by rw [named, List.map_cons, ← same]; rfl⟩

theorem areAssigned_named_iff {s : Assignment} :
    AreAssigned (named s) ↔ (s.map Prod.fst).Nodup := by
  constructor
  · exact fun assigned => nodup_named_iff.1 assigned.once
  · intro distinct
    refine ⟨?_, nodup_named_iff.2 distinct⟩
    intro p mem
    obtain ⟨q, -, rfl⟩ := List.mem_map.1 mem
    exact ⟨q.1, rfl⟩

/-- What a marker asks for is what its arguments ask for, each under the name of its slot. -/
theorem decode_eq_ok_iff {a : AttributeDescriptor} {config : Config} :
    decode a = .ok config ↔
      a.arguments.length ≤ 3 ∧ AreAssigned (given a) ∧ AskFor (given a) config := by
  have steps : decode a = .ok config ↔
      ∃ s, assign a = .ok s ∧ Config.ofAssignment s = .ok config := by
    unfold decode
    cases assign a <;> simp [bind, Except.bind]
  rw [steps]
  constructor
  · rintro ⟨s, assigned, read⟩
    obtain ⟨few, names, distinct⟩ := assign_eq_ok_iff.1 assigned
    rw [← names]
    exact ⟨few, areAssigned_named_iff.2 distinct, (ofAssignment_eq_ok_iff_askFor distinct).1 read⟩
  · rintro ⟨few, assigned, asked⟩
    obtain ⟨s, names⟩ := exists_named_eq assigned.known
    rw [← names] at assigned asked
    have distinct := areAssigned_named_iff.1 assigned
    exact ⟨s, assign_eq_ok_iff.2 ⟨few, names, distinct⟩,
      (ofAssignment_eq_ok_iff_askFor distinct).2 asked⟩

theorem exists_decode_eq_ok_iff {a : AttributeDescriptor} :
    (∃ config, decode a = .ok config) ↔
      a.arguments.length ≤ 3 ∧ AreAssigned (given a) ∧ HaveKinds (given a) := by
  simp only [decode_eq_ok_iff]
  constructor
  · rintro ⟨config, few, assigned, asked⟩
    exact ⟨few, assigned, (exists_askFor_iff assigned).1 ⟨config, asked⟩⟩
  · rintro ⟨few, assigned, kinds⟩
    obtain ⟨config, asked⟩ := (exists_askFor_iff assigned).2 kinds
    exact ⟨config, few, assigned, asked⟩

/-- Two markers that give the same values for the same slots ask for the same. -/
theorem decode_of_perm {a b : AttributeDescriptor} (fewA : a.arguments.length ≤ 3)
    (fewB : b.arguments.length ≤ 3) (perm : (given a).Perm (given b)) (config : Config) :
    decode a = .ok config ↔ decode b = .ok config := by
  rw [decode_eq_ok_iff, decode_eq_ok_iff, areAssigned_perm perm, askFor_perm perm]
  exact and_congr_left fun _ => iff_of_true fewA fewB

/-- A value at the end of the positional arguments is given for the slot at its position. -/
theorem zip_append_singleton {arguments : List Value} {slot : Slot}
    (position : Slot.all[arguments.length]? = some slot) (v : Value) :
    (Slot.all.map fun s => s.name.toList).zip (arguments ++ [v]) =
      (Slot.all.map fun s => s.name.toList).zip arguments ++ [(slot.name.toList, v)] := by
  rcases arguments with _ | ⟨w, _ | ⟨x, _ | ⟨y, rest⟩⟩⟩ <;> simp [Slot.all] at position ⊢ <;>
    rw [← position]

/-- A positional argument that is named instead is given for the same slot. -/
theorem given_perm_of_moved {name key : String} {arguments : List Value} {v : Value} {slot : Slot}
    (position : Slot.all[arguments.length]? = some slot)
    (named : Slot.lowerFirst key.toList = slot.name.toList)
    (before after : List (String × Value)) :
    (given ⟨name, arguments ++ [v], before ++ after⟩).Perm
      (given ⟨name, arguments, before ++ (key, v) :: after⟩) := by
  simp only [given, normalized, List.map_append, List.map_cons, zip_append_singleton position,
    named, List.append_assoc, List.singleton_append]
  exact List.Perm.append_left _ List.perm_middle.symm

/-- A marker is decoded exactly when it has no more positional arguments than slots, each argument
is given for a slot, no slot is given twice and each value is of the kind of its slot; what it asks
for is what is given, with the defaults elsewhere, and otherwise its arguments are in error.  So it
makes no difference whether an argument is positional or named, and in which order the named ones
stand. -/
theorem decode_depends_on_slots :
    (∀ a : AttributeDescriptor,
      ((∃ config, decode a = .ok config) ↔
        a.arguments.length ≤ 3 ∧ AreAssigned (given a) ∧ HaveKinds (given a)) ∧
      (∀ config, decode a = .ok config ↔
        a.arguments.length ≤ 3 ∧ AreAssigned (given a) ∧ AskFor (given a) config) ∧
      ((∃ e, decode a = .error e) ↔
        ¬(a.arguments.length ≤ 3 ∧ AreAssigned (given a) ∧ HaveKinds (given a)))) ∧
    (∀ a b : AttributeDescriptor, a.arguments.length ≤ 3 → b.arguments.length ≤ 3 →
      (given a).Perm (given b) → ∀ config, decode a = .ok config ↔ decode b = .ok config) ∧
    (∀ name arguments (named named' : List (String × Value)), named.Perm named' →
      ∀ config, decode ⟨name, arguments, named⟩ = .ok config ↔
        decode ⟨name, arguments, named'⟩ = .ok config) ∧
    ∀ name (arguments : List Value) v slot key (before after : List (String × Value)),
      Slot.all[arguments.length]? = some slot → Slot.lowerFirst key.toList = slot.name.toList →
        ∀ config, decode ⟨name, arguments ++ [v], before ++ after⟩ = .ok config ↔
          decode ⟨name, arguments, before ++ (key, v) :: after⟩ = .ok config := by
  refine ⟨?_, ?_, ?_, ?_⟩
  · intro a
    refine ⟨exists_decode_eq_ok_iff, fun _ => decode_eq_ok_iff, ?_⟩
    rw [← exists_decode_eq_ok_iff]
    cases decode a <;> simp
  · intro a b fewA fewB perm config
    exact decode_of_perm fewA fewB perm config
  · intro name arguments named named' perm config
    have same : (given ⟨name, arguments, named⟩).Perm (given ⟨name, arguments, named'⟩) :=
      (perm.map _).append_left _
    rw [decode_eq_ok_iff, decode_eq_ok_iff, areAssigned_perm same, askFor_perm same]
  · intro name arguments v slot key before after position named config
    have room : arguments.length < 3 := (List.getElem?_eq_some_iff.1 position).1
    refine decode_of_perm ?_ (Nat.le_of_lt room) (given_perm_of_moved position named before after)
      config
    rw [List.length_append, List.length_singleton]
    exact room

/-- A marker with two positional arguments, with the second one named, with the named ones in the
other order, and with all of them named: each asks for the same. -/
theorem decode_depends_on_slots_lead :
    let format : Value := .string " UniqueIdFormat.HTML_ID "
    let flag : String × Value := ("Deterministic", .bool false)
    let lead : String × Value := ("Prefix", .string "p-")
    let asked : Config := ⟨.htmlId, some "p-", false⟩
    decode ⟨"UniqueId", [format, .string "p-"], [flag]⟩ = .ok asked ∧
      decode ⟨"UniqueId", [format], [flag, lead]⟩ = .ok asked ∧
      decode ⟨"UniqueId", [format], [lead, flag]⟩ = .ok asked ∧
      decode ⟨"UniqueId", [], [lead, ("format", format), flag]⟩ = .ok asked := by
  intro format flag lead asked
  obtain ⟨-, sameSlots, permuted, moved⟩ := decode_depends_on_slots
  have positional : decode ⟨"UniqueId", [format, .string "p-"], [flag]⟩ = .ok asked := by rfl
  have second : decode ⟨"UniqueId", [format], [flag, lead]⟩ = .ok asked :=
    (moved "UniqueId" [format] (.string "p-") .lead "Prefix" [flag] [] rfl (by decide) asked).1
      positional
  have swapped : decode ⟨"UniqueId", [format], [lead, flag]⟩ = .ok asked :=
    (permuted "UniqueId" [format] _ _ (.swap lead flag []) asked).1 second
  refine ⟨positional, second, swapped, ?_⟩
  have name : Slot.lowerFirst "format".toList = Slot.format.name.toList := by decide
  refine (sameSlots ⟨"UniqueId", [format], [lead, flag]⟩ _ (by decide) (by decide) ?_ asked).1
    swapped
  simp only [given, normalized, List.map_cons, name]
  exact .swap _ _ _

end CallSiteIds.Marker
