import CallSiteIds.Validation

/-!
# Reading the files of a directory

Validation looks up each file of a directory before it reads it.  Only the lookup can fail; what is
made of a file that can be read depends on its bytes alone, and a missing or unreadable file gives
a finding.  So where a result holds no such finding, there are bytes that it comes from
(`bind_requiredBytes_eq_ok_iff`).
-/

set_option autoImplicit false

namespace CallSiteIds

namespace Validation

variable {t : FileTree} {path : Path} {unreadable : String → FileError → Finding}

theorem requiredBytes_eq_ok_iff {bytes : List UInt8} :
    requiredBytes t path unreadable = .ok (.ok bytes) ↔ t.read path.parts = .ok bytes := by
  rw [requiredBytes]
  constructor
  · intro h
    split at h
    · cases h
    · cases h
    · split at h
      · cases h
      · rename_i found
        injection h with h
        injection h with h
        rw [← h, found]
  · intro found
    rw [FileTree.status_of_read found]
    simp only [found]

theorem requiredBytes_eq_error_iff {e : Problem} :
    requiredBytes t path unreadable = .error e ↔
      ∃ kind, t.status path.parts = .error kind ∧ e = .file path.text kind := by
  rw [requiredBytes]
  cases t.status path.parts with
  | error kind => simp [eq_comm]
  | ok entry =>
    refine iff_of_false ?_ (by rintro ⟨kind, ⟨⟩, -⟩)
    intro h
    cases entry with
    | none => cases h
    | some entry => cases held : t.read path.parts <;> simp only [held] at h <;> cases h

/-! ## What is made of a file -/

section Bound

variable {α : Type} {missing : Finding → α} {present : List UInt8 → α}

/-- A result that no finding about the file as a whole gives comes from the bytes of the file. -/
theorem bind_requiredBytes_eq_ok_iff {a : α} (other : ∀ f, missing f ≠ a) :
    (do
      match ← requiredBytes t path unreadable with
      | .error f => return missing f
      | .ok bytes => return present bytes : Except Problem α) = .ok a ↔
      ∃ bytes, t.read path.parts = .ok bytes ∧ present bytes = a := by
  constructor
  · intro h
    cases found : requiredBytes t path unreadable with
    | error e =>
      rw [found] at h
      cases h
    | ok bytes =>
      rw [found] at h
      cases bytes with
      | error f =>
        injection h with h
        exact absurd h (other f)
      | ok bytes =>
        injection h with h
        exact ⟨bytes, requiredBytes_eq_ok_iff.1 found, h⟩
  · rintro ⟨bytes, read, rfl⟩
    rw [requiredBytes_eq_ok_iff.2 read]
    rfl

theorem bind_requiredBytes_eq_error_iff {e : Problem} :
    (do
      match ← requiredBytes t path unreadable with
      | .error f => return missing f
      | .ok bytes => return present bytes : Except Problem α) = .error e ↔
      ∃ kind, t.status path.parts = .error kind ∧ e = .file path.text kind := by
  rw [← requiredBytes_eq_error_iff]
  constructor
  · intro h
    cases found : requiredBytes t path unreadable with
    | error e' =>
      rw [found] at h
      injection h with h
      rw [h]
    | ok bytes =>
      rw [found] at h
      cases bytes <;> cases h
  · intro h
    rw [h]
    rfl

end Bound

/-! ## The three files -/

section Files

variable {bytes : List UInt8} {records : Option (List InterceptRecord)} {e : Problem}

theorem summaryOf_of_read (read : t.read path.parts = .ok bytes) :
    summaryOf t path = .ok (readSummary bytes) := by
  rw [summaryOf, requiredBytes_eq_ok_iff.2 read]
  rfl

theorem manifestOf_of_read (read : t.read path.parts = .ok bytes) :
    manifestOf t path = .ok (some (readManifest bytes).1,
      (readManifest bytes).2.map fun (line, f) => (some line, f)) := by
  rw [manifestOf, requiredBytes_eq_ok_iff.2 read]
  rfl

theorem summaryOf_eq_error_iff :
    summaryOf t path = .error e ↔
      ∃ kind, t.status path.parts = .error kind ∧ e = .file path.text kind :=
  bind_requiredBytes_eq_error_iff

theorem manifestOf_eq_error_iff :
    manifestOf t path = .error e ↔
      ∃ kind, t.status path.parts = .error kind ∧ e = .file path.text kind :=
  bind_requiredBytes_eq_error_iff

theorem sourceOf_eq_error_iff :
    sourceOf t path records = .error e ↔
      ∃ kind, t.status path.parts = .error kind ∧ e = .file path.text kind :=
  bind_requiredBytes_eq_error_iff

/-- Looking for a source that may be there or not always has an outcome. -/
theorem exists_sourceOf {entry : Option Entry} (status : t.status path.parts = .ok entry)
    (records : Option (List InterceptRecord)) : ∃ found, sourceOf t path records = .ok found := by
  cases outcome : sourceOf t path records with
  | ok found => exact ⟨found, rfl⟩
  | error e =>
    obtain ⟨kind, failed, -⟩ := sourceOf_eq_error_iff.1 outcome
    rw [status] at failed
    cases failed

end Files

end Validation

end CallSiteIds
