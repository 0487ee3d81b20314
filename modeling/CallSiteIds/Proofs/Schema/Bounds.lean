import CallSiteIds.Proofs.Decimal.Digits
import CallSiteIds.Proofs.Json.Bounds
import CallSiteIds.Schema.Scalar

/-!
# What a reading can give

A reading that succeeds took its parts from the fields of an object, so what bounds a document
bounds what is read from it: a list has as many items as its array, and an integer has no more
digits than a text may have.
-/

set_option autoImplicit false

namespace CallSiteIds.Schema

open Decimal (HasFewDigits)
open Json (Value IsBounded HaveBoundedValues)
open Checked

variable {α β : Type}

/-! ## Readings that succeed -/

namespace Checked

theorem map_eq_valid {f : α → β} {a : Checked α} {b : β} (h : f <$> a = valid b) :
    ∃ x, a = valid x ∧ f x = b := by
  cases a with
  | valid x =>
    injection h with h
    exact ⟨x, rfl, h⟩
  | invalid issues => cases h

theorem seq_eq_valid {f : Checked (α → β)} {a : Checked α} {b : β} (h : f <*> a = valid b) :
    ∃ g x, f = valid g ∧ a = valid x ∧ g x = b := by
  cases f with
  | valid g =>
    cases a with
    | valid x =>
      injection h with h
      exact ⟨g, x, rfl, rfl, h⟩
    | invalid issues => cases h
  | invalid issues => cases a <;> cases h

theorem under_eq_valid {step : Step} {a : Checked α} {x : α} (h : a.under step = valid x) :
    a = valid x := by
  cases a with
  | valid y => exact h
  | invalid issues => cases h

theorem andThen_eq_valid {f : α → Checked β} {a : Checked α} {b : β}
    (h : a.andThen f = valid b) : ∃ x, a = valid x ∧ f x = valid b := by
  cases a with
  | valid x => exact ⟨x, rfl, h⟩
  | invalid issues => cases h

theorem toExcept_eq_ok {name : String} {a : Checked α} {x : α}
    (h : a.toExcept name = .ok x) : a = valid x := by
  cases a with
  | valid y =>
    injection h with h
    rw [h]
  | invalid issues => cases h

end Checked

theorem model_eq_valid {read : Fields → Checked α} {v : Value} {x : α}
    (h : model read v = valid x) : ∃ fields, v = .object fields ∧ read fields = valid x := by
  cases v with
  | object fields => exact ⟨fields, rfl, h⟩
  | null => cases h
  | bool b => cases h
  | int n => cases h
  | float y => cases h
  | string s => cases h
  | array vs => cases h

theorem field_eq_valid {name : String} {x : α} {read : Value → Checked α} {fields : Fields}
    (h : field name read fields = valid x) :
    ∃ v, Json.field? name fields = some v ∧ read v = valid x := by
  have h := under_eq_valid h
  split at h
  · rename_i v found
    exact ⟨v, found, h⟩
  · cases h

theorem fieldOr_eq_valid {name : String} {default x : α} {read : Value → Checked α}
    {fields : Fields} (h : fieldOr name default read fields = valid x) :
    x = default ∨ ∃ v, Json.field? name fields = some v ∧ read v = valid x := by
  rw [fieldOr] at h
  split at h
  · rename_i v found
    exact Or.inr ⟨v, found, under_eq_valid h⟩
  · injection h with h
    exact Or.inl h.symm

theorem nullable_eq_valid {read : Value → Checked α} {v : Value} {x : Option α}
    (h : nullable read v = valid x) : x = none ∨ ∃ y, x = some y ∧ read v = valid y := by
  unfold nullable at h
  split at h
  · injection h with h
    exact Or.inl h.symm
  · obtain ⟨y, read, e⟩ := map_eq_valid h
    exact Or.inr ⟨y, e.symm, read⟩

/-! ## Lists -/

theorem length_of_items {read : Value → Checked α} {vs : List Value} {xs : List α} {i : Nat}
    (h : items read i vs = valid xs) : xs.length = vs.length := by
  induction vs generalizing i xs with
  | nil =>
    injection h with h
    rw [← h]
    rfl
  | cons v vs ih =>
    obtain ⟨g, rest, first, later, rfl⟩ := seq_eq_valid h
    obtain ⟨x, -, rfl⟩ := map_eq_valid first
    rw [List.length_cons, List.length_cons, ih later]

theorem list_eq_valid {read : Value → Checked α} {v : Value} {xs : List α}
    (h : list read v = valid xs) : ∃ vs, v = .array vs ∧ items read 0 vs = valid xs := by
  cases v with
  | array vs => exact ⟨vs, rfl, h⟩
  | null => cases h
  | bool b => cases h
  | int n => cases h
  | float y => cases h
  | string s => cases h
  | object fields => cases h

theorem length_of_list {n : Nat} {read : Value → Checked α} {v : Value} {xs : List α}
    (bounded : IsBounded n v) (h : list read v = valid xs) : xs.length ≤ n := by
  obtain ⟨vs, rfl, h⟩ := list_eq_valid h
  rw [length_of_items h]
  exact bounded.1

/-- Whatever holds of all that a reading gives holds of the items of a list. -/
theorem forall_mem_of_items {P : α → Prop} {read : Value → Checked α}
    (each : ∀ v x, read v = valid x → P x) {vs : List Value} {xs : List α} {i : Nat}
    (h : items read i vs = valid xs) : ∀ x ∈ xs, P x := by
  induction vs generalizing i xs with
  | nil =>
    injection h with h
    subst h
    intro x mem
    cases mem
  | cons v vs ih =>
    obtain ⟨_, rest, first, later, rfl⟩ := seq_eq_valid h
    obtain ⟨x, single, rfl⟩ := map_eq_valid first
    intro y mem
    rcases List.mem_cons.1 mem with rfl | mem
    · exact each v y (under_eq_valid single)
    · exact ih later y mem

/-! ## Integers -/

theorem digits_of_asciiDigits? {cs : List Char} {ds : List Nat} (h : asciiDigits? cs = some ds) :
    ∀ d ∈ ds, d < 10 := by
  have small (c : Char) (digit : c.isDigit = true) : c.toNat - 48 < 10 := by
    have := Decimal.toNat_of_isDigit digit
    omega
  fun_induction asciiDigits? cs generalizing ds with
  | case1 => cases h
  | case2 c digit =>
    injection h with h
    subst h
    intro d mem
    rw [List.mem_singleton.1 mem]
    exact small c digit
  | case3 => cases h
  | case4 c rest digit ih =>
    obtain ⟨es, read, rfl⟩ := Option.map_eq_some_iff.1 h
    intro d mem
    rcases List.mem_cons.1 mem with rfl | mem
    · exact small c digit
    · exact ih read d mem
  | case5 => cases h
  | case6 c d rest _ digit ih =>
    obtain ⟨es, read, rfl⟩ := Option.map_eq_some_iff.1 h
    intro e mem
    rcases List.mem_cons.1 mem with rfl | mem
    · exact small c digit
    · exact ih read e mem
  | case7 => cases h

/-- An integer that fits into a document has few digits. -/
theorem hasFewDigits_of_natAbs_lt {n : Int} (h : n.natAbs < 100000000000000000000) :
    HasFewDigits n := by
  have small : n.natAbs < Nat.pow 10 20 := h
  exact Decimal.hasFewDigits_of_lt small (by decide)

theorem hasFewDigits_of_integerOfText {s : String} {n : Int} (h : integerOfText s = valid n) :
    HasFewDigits n := by
  simp only [integerOfText] at h
  split at h
  · cases h
  · rename_i ds read
    split at h
    · cases h
    · rename_i few
      have value := Decimal.ofDigits_lt (digits_of_asciiDigits? read)
      injection h with h
      have : n.natAbs = Decimal.ofDigits ds := by
        rw [← h]
        split <;> simp
      rw [← this] at value
      exact Decimal.hasFewDigits_of_lt value (Nat.le_of_not_lt few)

/-- An integer that is read from a bounded document has few digits. -/
theorem hasFewDigits_of_integer {m : Nat} {v : Value} {n : Int} (bounded : IsBounded m v)
    (h : integer v = valid n) : HasFewDigits n := by
  cases v with
  | int i =>
    injection h with h
    subst h
    simp only [IsBounded, Json.fitsWord, Bool.and_eq_true, decide_eq_true_eq] at bounded
    exact hasFewDigits_of_natAbs_lt (by omega)
  | bool b =>
    injection h with h
    subst h
    exact hasFewDigits_of_natAbs_lt (by cases b <;> decide)
  | float x =>
    simp only [integer] at h
    split at h
    · cases h
    · split at h
      · rename_i fits
        injection h with h
        subst h
        simp only [fitsWord, decide_eq_true_eq] at fits
        exact hasFewDigits_of_natAbs_lt (by omega)
      · cases h
  | string s => exact hasFewDigits_of_integerOfText h
  | null => cases h
  | array vs => cases h
  | object fields => cases h

end CallSiteIds.Schema
