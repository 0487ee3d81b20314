import CallSiteIds.Json.Reader
import CallSiteIds.Json.Writer

/-!
# Documents up to the order of fields

A written object has its fields sorted by key, so what is read back is the same document with
sorted fields.  This file states which documents can be read back at all, what sorting does to
a document, and that looking up a field does not see it.
-/

set_option autoImplicit false

namespace CallSiteIds.Json

/-- Induction over a document: an array by its items, an object by the values of its fields. -/
theorem Value.induction {motive : Value → Prop} (null : motive .null)
    (bool : ∀ b, motive (.bool b)) (int : ∀ n, motive (.int n)) (float : ∀ x, motive (.float x))
    (string : ∀ s, motive (.string s))
    (array : ∀ items, (∀ v ∈ items, motive v) → motive (.array items))
    (object : ∀ fields, (∀ p ∈ fields, motive p.2) → motive (.object fields)) (v : Value) :
    motive v := by
  match v with
  | .null => exact null
  | .bool b => exact bool b
  | .int n => exact int n
  | .float x => exact float x
  | .string s => exact string s
  | .array items =>
    exact array items fun v _ => Value.induction null bool int float string array object v
  | .object fields =>
    exact object fields fun p _ => Value.induction null bool int float string array object p.2
termination_by sizeOf v
decreasing_by
  · rename_i mem
    have := List.sizeOf_lt_of_mem mem
    simp only [Value.array.sizeOf_spec]
    omega
  · rename_i mem
    have := List.sizeOf_lt_of_mem mem
    have : sizeOf p.2 < sizeOf p := by
      obtain ⟨k, w⟩ := p
      simp only [Prod.mk.sizeOf_spec]
      omega
    simp only [Value.object.sizeOf_spec]
    omega

/-! ## Plain documents -/

mutual

/-- A document with integers of at most 64 bits, no binary numbers, and distinct keys in each
object. -/
def IsPlain : Value → Prop
  | .int n => fitsWord n = true
  | .float _ => False
  | .array items => ArePlain items
  | .object fields => (fields.map Prod.fst).Nodup ∧ HavePlainValues fields
  | _ => True

/-- Plain items of an array. -/
def ArePlain : List Value → Prop
  | [] => True
  | v :: vs => IsPlain v ∧ ArePlain vs

/-- Fields with plain values. -/
def HavePlainValues : List (String × Value) → Prop
  | [] => True
  | (_, v) :: fields => IsPlain v ∧ HavePlainValues fields

end

theorem arePlain_iff {vs : List Value} : ArePlain vs ↔ ∀ v ∈ vs, IsPlain v := by
  induction vs with
  | nil => simp [ArePlain]
  | cons v vs ih => simp [ArePlain, ih]

theorem havePlainValues_iff {fields : List (String × Value)} :
    HavePlainValues fields ↔ ∀ p ∈ fields, IsPlain p.2 := by
  induction fields with
  | nil => simp [HavePlainValues]
  | cons p fields ih => simp [HavePlainValues, ih]

/-! ## The document that is read back -/

/-- The order of fields by their keys. -/
def fieldLe (a b : String × Value) : Bool :=
  a.1 ≤ b.1

mutual

/-- A document with the fields of all its objects sorted by key. -/
def sortFields : Value → Value
  | .array items => .array (sortFieldsOfItems items)
  | .object fields => .object ((sortFieldsOfValues fields).mergeSort fieldLe)
  | v => v

/-- The items of an array, each with sorted fields. -/
def sortFieldsOfItems : List Value → List Value
  | [] => []
  | v :: vs => sortFields v :: sortFieldsOfItems vs

/-- The fields of an object, each with a value whose fields are sorted. -/
def sortFieldsOfValues : List (String × Value) → List (String × Value)
  | [] => []
  | (k, v) :: fields => (k, sortFields v) :: sortFieldsOfValues fields

end

theorem sortFieldsOfItems_eq_map (vs : List Value) :
    sortFieldsOfItems vs = vs.map sortFields := by
  induction vs with
  | nil => rfl
  | cons v vs ih => rw [sortFieldsOfItems, ih, List.map_cons]

theorem sortFieldsOfValues_eq_map (fields : List (String × Value)) :
    sortFieldsOfValues fields = fields.map fun p => (p.1, sortFields p.2) := by
  induction fields with
  | nil => rfl
  | cons p fields ih => rw [sortFieldsOfValues, ih, List.map_cons]

theorem perm_sortFieldsOfValues (fields : List (String × Value)) :
    ((sortFieldsOfValues fields).mergeSort fieldLe).Perm
      (fields.map fun p => (p.1, sortFields p.2)) := by
  rw [sortFieldsOfValues_eq_map]
  exact List.mergeSort_perm _ _

theorem mergeSort_sortFieldsOfValues (fields : List (String × Value)) :
    (sortFieldsOfValues fields).mergeSort fieldLe =
      (fields.mergeSort fieldLe).map fun p => (p.1, sortFields p.2) := by
  rw [sortFieldsOfValues_eq_map]
  symm
  apply List.map_mergeSort
  intro p _ q _
  rfl

/-! ### Fields of a sorted object -/

/-- A field with a key that no other field has is found, wherever it stands. -/
theorem field?_eq_some_of_mem {fields : List (String × Value)}
    (distinct : (fields.map Prod.fst).Nodup) {key : String} {v : Value}
    (mem : (key, v) ∈ fields) : field? key fields = some v := by
  induction fields with
  | nil => cases mem
  | cons p fields ih =>
    obtain ⟨k, w⟩ := p
    rw [List.map_cons, List.nodup_cons] at distinct
    rcases List.mem_cons.1 mem with e | mem
    · injection e with ek ev
      rw [field?, if_pos ek.symm, ev]
    · have other : k ≠ key := by
        rintro rfl
        exact distinct.1 (List.mem_map.2 ⟨_, mem, rfl⟩)
      rw [field?, if_neg other, ih distinct.2 mem]

theorem mem_of_field?_eq_some {fields : List (String × Value)} {key : String} {v : Value}
    (h : field? key fields = some v) : (key, v) ∈ fields := by
  induction fields with
  | nil => cases h
  | cons p fields ih =>
    obtain ⟨k, w⟩ := p
    rw [field?] at h
    split at h
    · subst k
      injection h with h
      subst h
      exact List.mem_cons_self
    · exact List.mem_cons_of_mem _ (ih h)

/-- The order of fields with distinct keys does not matter for their values. -/
theorem field?_eq_of_perm {fields others : List (String × Value)} (perm : fields.Perm others)
    (distinct : (fields.map Prod.fst).Nodup) (key : String) :
    field? key fields = field? key others := by
  have distinct' : (others.map Prod.fst).Nodup := (perm.map Prod.fst).nodup_iff.1 distinct
  apply Option.ext
  intro v
  constructor
  · intro h
    exact field?_eq_some_of_mem distinct' (perm.mem_iff.1 (mem_of_field?_eq_some h))
  · intro h
    exact field?_eq_some_of_mem distinct (perm.mem_iff.2 (mem_of_field?_eq_some h))

/-- Sorting the fields at every level keeps every field and sorts the fields in its value. -/
theorem field?_sortFields (fields : List (String × Value))
    (distinct : (fields.map Prod.fst).Nodup) (key : String) :
    field? key ((sortFieldsOfValues fields).mergeSort fieldLe) =
      (field? key fields).map sortFields := by
  have keys : ((fields.map fun p => (p.1, sortFields p.2)).map Prod.fst).Nodup := by
    rw [List.map_map]
    exact distinct
  rw [← field?_eq_of_perm (perm_sortFieldsOfValues fields).symm keys]
  clear keys distinct
  induction fields with
  | nil => rfl
  | cons p fields ih =>
    obtain ⟨k, v⟩ := p
    rw [List.map_cons, field?, field?]
    split
    · rfl
    · exact ih

/-! ### Nesting -/

theorem nestingOfItems_le_iff {vs : List Value} {d : Nat} :
    nestingOfItems vs ≤ d ↔ ∀ v ∈ vs, nesting v ≤ d := by
  induction vs with
  | nil => simp [nestingOfItems]
  | cons v vs ih => rw [nestingOfItems, Nat.max_le, ih, List.forall_mem_cons]

theorem nestingOfFields_le_iff {fields : List (String × Value)} {d : Nat} :
    nestingOfFields fields ≤ d ↔ ∀ p ∈ fields, nesting p.2 ≤ d := by
  induction fields with
  | nil => simp [nestingOfFields]
  | cons p fields ih =>
    obtain ⟨k, v⟩ := p
    rw [nestingOfFields, Nat.max_le, ih, List.forall_mem_cons]

theorem nesting_sortFields_le (v : Value) : nesting (sortFields v) ≤ nesting v := by
  induction v using Value.induction with
  | null => exact Nat.le_refl _
  | bool b => exact Nat.le_refl _
  | int n => exact Nat.le_refl _
  | float x => exact Nat.le_refl _
  | string s => exact Nat.le_refl _
  | array items ih =>
    rw [sortFields, sortFieldsOfItems_eq_map, nesting, nesting]
    apply Nat.add_le_add_right
    rw [nestingOfItems_le_iff]
    intro w mem
    obtain ⟨v, inside, rfl⟩ := List.mem_map.1 mem
    exact Nat.le_trans (ih v inside) (nestingOfItems_le_iff.1 (Nat.le_refl _) v inside)
  | object fields ih =>
    rw [sortFields, nesting, nesting]
    apply Nat.add_le_add_right
    rw [nestingOfFields_le_iff]
    intro q mem
    obtain ⟨p, inside, rfl⟩ := List.mem_map.1 ((perm_sortFieldsOfValues fields).mem_iff.1 mem)
    exact Nat.le_trans (ih p inside) (nestingOfFields_le_iff.1 (Nat.le_refl _) p inside)

end CallSiteIds.Json
