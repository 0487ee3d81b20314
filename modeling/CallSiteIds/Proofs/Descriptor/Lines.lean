import CallSiteIds.Proofs.Descriptor.Documents
import Mathlib.Data.List.Forall2
import Mathlib.Data.List.TakeWhile

/-!
# Every line counts once

A line of a descriptor file that holds more than blanks is visible.  Each visible line either
gives its descriptor or is reported with its number, never both (`Reads`), and a blank line
gives nothing (`reads_visible`).  So the visible lines are as many as the descriptors and the reports together,
and the reports follow the order of the lines (`accounts_for_lines`).
-/

set_option autoImplicit false

namespace CallSiteIds

/-! ## Blank lines -/

namespace Text

theorem dropWhile_eq_nil_iff_all {α : Type} {test : α → Bool} {xs : List α} :
    xs.dropWhile test = [] ↔ xs.all test = true := by
  rw [List.dropWhile_eq_nil_iff, List.all_eq_true]

/-- Nothing is left of a list exactly when all of it is trimmed. -/
theorem isEmpty_trimBoth {α : Type} (test : α → Bool) (xs : List α) :
    (trimBoth test xs).isEmpty = xs.all test := by
  rw [Bool.eq_iff_iff, List.isEmpty_iff, trimBoth, List.reverse_eq_nil_iff,
    dropWhile_eq_nil_iff_all, List.all_reverse]
  constructor
  · intro rest
    rw [← List.takeWhile_append_dropWhile (p := test) (l := xs), List.all_append, rest,
      List.all_takeWhile]
    rfl
  · intro all
    rw [dropWhile_eq_nil_iff_all.2 all]
    rfl

end Text

/-! ## One line -/

namespace DescriptorLine

/-- A line with its number holds more than blanks. -/
def isVisible (l : List UInt8 × Nat) : Bool :=
  !l.1.all Text.isBlankByte

/-- A line with its number gives no descriptor. -/
def isUnreadable (l : List UInt8 × Nat) : Bool :=
  (descriptorOf? l.1).isNone

/-- What is reported of an unreadable line: its number, and either that it is no document or what
is wrong with the document. -/
def Reports (l : List UInt8 × Nat) (f : RecordFailure) : Prop :=
  let document := Json.parseBytes? (Text.trimBoth Text.isBlankByte l.1)
  ∃ reason, f = ⟨none, none, some (l.2 : Int), reason⟩ ∧
    (document = none ∧ reason = "Invalid JSON." ∨
      ∃ v failure, document = some v ∧
        (InvocationDescriptor.read v).toExcept "InvocationDescriptor" = .error failure ∧
        reason = "Schema validation failed: " ++ failure.message ++ ".")

/-- What reading a visible line may give. -/
inductive Reads (l : List UInt8 × Nat) : DescriptorLine → Prop where
  | loaded {d : InvocationDescriptor} (readable : descriptorOf? l.1 = some d) :
      Reads l (.loaded d)
  | reported {line : DescriptorLine} {f : RecordFailure} (unreadable : descriptorOf? l.1 = none)
      (none : line.descriptor? = none) (failure : line.failure? = some f) (report : Reports l f) :
      Reads l line

theorem read?_of_not_isVisible {l : List UInt8 × Nat} (blank : isVisible l = false) (n : Nat) :
    read? n l.1 = none := by
  have empty : (Text.trimBoth Text.isBlankByte l.1).isEmpty = true := by
    rw [Text.isEmpty_trimBoth]
    simpa [isVisible] using blank
  unfold read?
  exact if_pos empty

/-- A visible line gives its descriptor or is reported. -/
theorem reads_of_isVisible {l : List UInt8 × Nat} (visible : isVisible l = true) :
    ∃ line, read? l.2 l.1 = some line ∧ Reads l line := by
  have rest : (Text.trimBoth Text.isBlankByte l.1).isEmpty = false := by
    rw [Text.isEmpty_trimBoth]
    simpa [isVisible] using visible
  have taken : read? l.2 l.1 = some (read l.2 (Text.trimBoth Text.isBlankByte l.1)) := by
    unfold read?
    exact if_neg (by simp [rest])
  refine ⟨_, taken, ?_⟩
  have same := bind_descriptor?_read? l.2 l.1
  rw [taken, Option.bind_some] at same
  unfold read at same ⊢
  cases parsed : Json.parseBytes? (Text.trimBoth Text.isBlankByte l.1) with
  | none =>
    rw [parsed] at same
    exact .reported same.symm rfl rfl ⟨_, rfl, Or.inl ⟨parsed, rfl⟩⟩
  | some v =>
    simp only [parsed] at same ⊢
    cases checked : (InvocationDescriptor.read v).toExcept "InvocationDescriptor" with
    | ok d =>
      rw [checked] at same
      exact .loaded same.symm
    | error failure =>
      rw [checked] at same
      exact .reported same.symm rfl rfl ⟨_, rfl, Or.inr ⟨v, failure, parsed, checked, rfl⟩⟩

end DescriptorLine

/-! ## All lines -/

namespace DescriptorBatch

open DescriptorLine (isVisible isUnreadable Reads Reports descriptorOf? read?_of_not_isVisible
  reads_of_isVisible)

/-- The visible lines of a file with their numbers, which count every line from one. -/
def visibleLines (bytes : List UInt8) : List (List UInt8 × Nat) :=
  ((Text.splitLines bytes).zipIdx 1).filter isVisible

/-- The visible lines that give no descriptor. -/
def unreadableLines (bytes : List UInt8) : List (List UInt8 × Nat) :=
  (visibleLines bytes).filter isUnreadable

/-- Each visible line gives one result, in the order of the lines, and a blank line gives none. -/
theorem reads_visible (number : Nat) (raw : List (List UInt8)) :
    List.Forall₂ Reads ((raw.zipIdx number).filter isVisible) (readLines number raw) := by
  induction raw generalizing number with
  | nil => exact .nil
  | cons line raw ih =>
    have later := ih (number + 1)
    rw [List.zipIdx_cons, readLines]
    cases visible : isVisible (line, number) with
    | false =>
      rw [List.filter_cons_of_neg (by simp [visible]), read?_of_not_isVisible visible]
      exact later
    | true =>
      obtain ⟨result, read, reads⟩ := reads_of_isVisible visible
      rw [List.filter_cons_of_pos visible, read]
      exact .cons reads later

/-- Results are the descriptors of the readable lines and the reports on the others, in order. -/
theorem accounts_of_reads {visible : List (List UInt8 × Nat)} {read : List DescriptorLine}
    (each : List.Forall₂ Reads visible read) :
    read.filterMap DescriptorLine.descriptor? = visible.filterMap (fun l => descriptorOf? l.1) ∧
      List.Forall₂ Reports (visible.filter isUnreadable)
        (read.filterMap DescriptorLine.failure?) ∧
      visible.length = (read.filterMap DescriptorLine.descriptor?).length +
        (read.filterMap DescriptorLine.failure?).length := by
  induction each with
  | nil => exact ⟨rfl, .nil, rfl⟩
  | @cons line result visible read first others ih =>
    obtain ⟨descriptors, reports, count⟩ := ih
    cases first with
    | loaded readable =>
      have readable' : isUnreadable line = false := by
        simp only [isUnreadable, readable, Option.isNone_some]
      rw [List.filterMap_cons_some (f := fun l : List UInt8 × Nat => descriptorOf? l.1) readable,
        List.filter_cons_of_neg (by simp [readable'])]
      refine ⟨congrArg _ descriptors, reports, ?_⟩
      simp only [List.filterMap_cons, DescriptorLine.descriptor?, DescriptorLine.failure?,
        List.length_cons]
      omega
    | reported unreadable none failure report =>
      have unreadable' : isUnreadable line = true := by
        simp only [isUnreadable, unreadable, Option.isNone_none]
      rw [List.filterMap_cons_none (f := fun l : List UInt8 × Nat => descriptorOf? l.1)
          unreadable, List.filter_cons_of_pos unreadable', List.filterMap_cons_none none,
        List.filterMap_cons_some failure]
      refine ⟨descriptors, .cons report reports, ?_⟩
      rw [List.length_cons, List.length_cons]
      omega

/-- Every visible line of a file is loaded or reported, exactly one of the two, and both lists
follow the order of the lines. -/
theorem accounts_for_lines (bytes : List UInt8) :
    (ofBytes bytes).descriptors = (visibleLines bytes).filterMap (fun l => descriptorOf? l.1) ∧
      List.Forall₂ Reports (unreadableLines bytes) (ofBytes bytes).errors ∧
      (visibleLines bytes).length =
        (ofBytes bytes).descriptors.length + (ofBytes bytes).errors.length :=
  accounts_of_reads (reads_visible 1 (Text.splitLines bytes))

end DescriptorBatch

end CallSiteIds
