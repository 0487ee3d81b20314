import CallSiteIds.Decimal.Binary64

/-!
# JSON values

A JSON document as data.  Integers and binary numbers are told apart, and an object keeps its
fields in the order in which they were first written, because both are visible later: in the
kind of an error, and in which of two errors comes first.
-/

set_option autoImplicit false

namespace CallSiteIds.Json

/-- A JSON document. -/
inductive Value where
  | null
  | bool (b : Bool)
  | int (n : Int)
  | float (x : Decimal.Binary64)
  | string (s : String)
  | array (items : List Value)
  | object (fields : List (String × Value))
deriving Inhabited

/-- Sets a field of an object: a repeated key keeps its place and takes the new value. -/
def putField (key : String) (value : Value) : List (String × Value) → List (String × Value)
  | [] => [(key, value)]
  | (k, v) :: rest =>
    if k = key then (key, value) :: rest else (k, v) :: putField key value rest

/-- The fields of an object whose members were written in the given order. -/
def fieldsOfMembers (members : List (String × Value)) : List (String × Value) :=
  members.foldl (fun fields (k, v) => putField k v fields) []

def field? (key : String) : List (String × Value) → Option Value
  | [] => none
  | (k, v) :: rest => if k = key then some v else field? key rest

@[simp] theorem field?_putField_self (key : String) (value : Value)
    (fields : List (String × Value)) : field? key (putField key value fields) = some value := by
  induction fields with
  | nil => simp [putField, field?]
  | cons p rest ih =>
    obtain ⟨k, v⟩ := p
    by_cases h : k = key
    · simp [putField, field?, h]
    · simp [putField, field?, h, ih]

theorem field?_putField_ne {key other : String} (h : other ≠ key) (value : Value)
    (fields : List (String × Value)) :
    field? other (putField key value fields) = field? other fields := by
  induction fields with
  | nil => simp [putField, field?, h.symm]
  | cons p rest ih =>
    obtain ⟨k, v⟩ := p
    by_cases hk : k = key
    · subst hk
      simp [putField, field?, h.symm]
    · rw [putField, if_neg hk]
      by_cases ho : k = other
      · simp [field?, ho]
      · simp [field?, ho, ih]

/-- The fields of an object whose keys are pairwise distinct are its members. -/
theorem putField_of_notMem {key : String} {fields : List (String × Value)}
    (h : ∀ p ∈ fields, p.1 ≠ key) (value : Value) :
    putField key value fields = fields ++ [(key, value)] := by
  induction fields with
  | nil => rfl
  | cons p rest ih =>
    obtain ⟨k, v⟩ := p
    have hk : k ≠ key := h (k, v) (by simp)
    rw [putField, if_neg hk, ih fun q hq => h q (by simp [hq])]
    rfl

end CallSiteIds.Json
