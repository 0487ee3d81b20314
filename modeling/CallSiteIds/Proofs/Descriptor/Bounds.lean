import CallSiteIds.Descriptor.Batch
import CallSiteIds.Proofs.Schema.Bounds
import CallSiteIds.Proofs.Text.Encoding

/-!
# Descriptors of a file

The parts of a descriptor are read from the fields of its object (`hasParts_of_read`).  What a file
of descriptors can give is bounded by its size: it has no more lines than bytes, no descriptor has
more parameters than its line has bytes, and the positions of calls have few digits.
-/

set_option autoImplicit false

namespace CallSiteIds

open Decimal (HasFewDigits)
open Schema
open Schema.Checked (map_eq_valid seq_eq_valid toExcept_eq_ok)

/-! ## Lines -/

namespace Text

theorem length_pushByte (b : UInt8) (lines : List (List UInt8)) :
    (pushByte b lines).length ≤ lines.length + 1 := by
  cases lines with
  | nil => exact Nat.le_refl _
  | cons line lines => exact Nat.le_succ _

theorem length_of_mem_pushByte {b : UInt8} {lines : List (List UInt8)} {n : Nat}
    (short : ∀ line ∈ lines, line.length ≤ n) {line : List UInt8}
    (mem : line ∈ pushByte b lines) : line.length ≤ n + 1 := by
  cases lines with
  | nil =>
    rw [List.mem_singleton.1 mem]
    exact Nat.le_add_left _ _
  | cons first lines =>
    rcases List.mem_cons.1 mem with rfl | mem
    · exact Nat.succ_le_succ (short first List.mem_cons_self)
    · exact Nat.le_succ_of_le (short line (List.mem_cons_of_mem _ mem))

theorem length_splitLines_le (bytes : List UInt8) :
    (splitLines bytes).length ≤ bytes.length := by
  fun_induction splitLines bytes with
  | case1 => exact Nat.le_refl _
  | case2 rest ih => exact Nat.succ_le_succ ih
  | case3 => exact Nat.le_refl _
  | case4 rest _ ih => exact Nat.succ_le_succ (Nat.le_succ_of_le ih)
  | case5 _ c rest _ ih => exact Nat.succ_le_succ ih
  | case6 b rest _ _ ih =>
    exact Nat.le_trans (length_pushByte b _) (Nat.succ_le_succ ih)

theorem length_of_mem_splitLines {bytes line : List UInt8} (mem : line ∈ splitLines bytes) :
    line.length ≤ bytes.length := by
  fun_induction splitLines bytes generalizing line with
  | case1 => cases mem
  | case2 rest ih =>
    rcases List.mem_cons.1 mem with rfl | mem
    · exact Nat.zero_le _
    · exact Nat.le_succ_of_le (ih mem)
  | case3 =>
    rw [List.mem_singleton.1 mem]
    exact Nat.zero_le _
  | case4 rest _ ih =>
    rcases List.mem_cons.1 mem with rfl | mem
    · exact Nat.zero_le _
    · exact Nat.le_succ_of_le (Nat.le_succ_of_le (ih mem))
  | case5 _ c rest _ ih =>
    rcases List.mem_cons.1 mem with rfl | mem
    · exact Nat.zero_le _
    · exact Nat.le_succ_of_le (ih mem)
  | case6 b rest _ _ ih => exact length_of_mem_pushByte (fun _ => ih) mem

theorem length_trimBoth_le {α : Type} (test : α → Bool) (xs : List α) :
    (trimBoth test xs).length ≤ xs.length := by
  rw [trimBoth, List.length_reverse]
  refine Nat.le_trans (List.dropWhile_sublist _).length_le ?_
  rw [List.length_reverse]
  exact (List.dropWhile_sublist _).length_le

end Text

/-! ## One descriptor -/

namespace InvocationDescriptor

/-- A descriptor as a file of `n` bytes can give it. -/
structure IsMeasured (n : Nat) (d : InvocationDescriptor) : Prop where
  parameters : d.parameters.length ≤ n
  position : ∀ l, d.sourceLocation? = some l → HasFewDigits l.line ∧ HasFewDigits l.column

/-- A place is resolved when every part is known, the path is not empty and the line and the column
are not negative. -/
theorem resolve?_eq_some_iff {l : LocationDescriptor} {s : SourceLocation} :
    l.resolve? = some s ↔
      l = ⟨some s.path, some (s.line : Int), some (s.column : Int)⟩ ∧ s.path ≠ "" := by
  constructor
  · intro h
    rw [LocationDescriptor.resolve?] at h
    split at h
    · rename_i path line column hp hl hc
      split at h
      · cases h
      · rename_i known
        injection h with h
        subst h
        simp only [not_or, Int.not_lt, String.isEmpty_iff] at known
        obtain ⟨path', line', column'⟩ := l
        obtain ⟨rfl, rfl, rfl⟩ : path' = some path ∧ line' = some line ∧ column' = some column :=
          ⟨hp, hl, hc⟩
        rw [Int.toNat_of_nonneg known.2.1, Int.toNat_of_nonneg known.2.2]
        exact ⟨rfl, known.1⟩
    · cases h
  · rintro ⟨rfl, path⟩
    have known : ¬(s.path.isEmpty = true ∨ (s.line : Int) < 0 ∨ (s.column : Int) < 0) := by
      rw [String.isEmpty_iff]
      rintro (empty | negative | negative)
      · exact path empty
      · omega
      · omega
    simp only [LocationDescriptor.resolve?, if_neg known, Int.toNat_natCast]

/-- The numbers of a place that is read from a bounded document have few digits. -/
theorem fewDigits_of_read {n : Nat} {v : Json.Value} {l : LocationDescriptor}
    (bounded : Json.IsBounded n v) (h : LocationDescriptor.read v = .valid l) :
    (∀ i ∈ l.line, HasFewDigits i) ∧ (∀ i ∈ l.column, HasFewDigits i) := by
  obtain ⟨fields, rfl, h⟩ := model_eq_valid h
  obtain ⟨_, column, h₁, readColumn, rfl⟩ := seq_eq_valid h
  obtain ⟨_, line, h₂, readLine, rfl⟩ := seq_eq_valid h₁
  obtain ⟨path, -, rfl⟩ := map_eq_valid h₂
  have number {name : String} {x : Option Int}
      (read : fieldOr name none (nullable integer) fields = .valid x) :
      ∀ i ∈ x, HasFewDigits i := by
    intro i mem
    rcases fieldOr_eq_valid read with rfl | ⟨v, found, present⟩
    · cases mem
    rcases nullable_eq_valid present with rfl | ⟨j, rfl, number⟩
    · cases mem
    · injection mem with e
      subst e
      exact hasFewDigits_of_integer (Json.isBounded_of_field? bounded found) number
  exact ⟨number readLine, number readColumn⟩

/-- What each part of a descriptor is read from. -/
structure HasParts (fields : Fields) (d : InvocationDescriptor) : Prop where
  targetType : field "target_type" string fields = .valid d.targetType
  methodName : field "method_name" string fields = .valid d.methodName
  returnType : field "return_type" string fields = .valid d.returnType
  isStatic : fieldOr "is_static" true boolean fields = .valid d.isStatic
  location : fieldOr "location" none (nullable LocationDescriptor.read) fields = .valid d.location
  interceptsData :
    fieldOr "intercepts_data" none (nullable string) fields = .valid d.interceptsData
  parameters : fieldOr "parameters" [] (list ParameterDescriptor.read) fields = .valid d.parameters

theorem hasParts_of_read {v : Json.Value} {d : InvocationDescriptor} (h : read v = .valid d) :
    ∃ fields, v = .object fields ∧ HasParts fields d := by
  obtain ⟨fields, rfl, h⟩ := model_eq_valid h
  obtain ⟨_, parameters, h₁, readParameters, rfl⟩ := seq_eq_valid h
  obtain ⟨_, data, h₂, readData, rfl⟩ := seq_eq_valid h₁
  obtain ⟨_, location, h₃, readLocation, rfl⟩ := seq_eq_valid h₂
  obtain ⟨_, isStatic, h₄, readStatic, rfl⟩ := seq_eq_valid h₃
  obtain ⟨_, returnType, h₅, readReturn, rfl⟩ := seq_eq_valid h₄
  obtain ⟨_, methodName, h₆, readMethod, rfl⟩ := seq_eq_valid h₅
  obtain ⟨targetType, readTarget, rfl⟩ := map_eq_valid h₆
  exact ⟨fields, rfl, readTarget, readMethod, readReturn, readStatic, readLocation, readData,
    readParameters⟩

theorem isMeasured_of_read {n : Nat} {v : Json.Value} {d : InvocationDescriptor}
    (bounded : Json.IsBounded n v) (h : read v = .valid d) : d.IsMeasured n := by
  obtain ⟨fields, rfl, parts⟩ := hasParts_of_read h
  constructor
  · rcases fieldOr_eq_valid parts.parameters with absent | ⟨w, found, read⟩
    · rw [absent]
      exact Nat.zero_le _
    · exact length_of_list (Json.isBounded_of_field? bounded found) read
  · intro s known
    obtain ⟨l, some, resolved⟩ := Option.bind_eq_some_iff.1 known
    have readLocation := parts.location
    rw [some] at readLocation
    rcases fieldOr_eq_valid readLocation with absent | ⟨w, found, read⟩
    · cases absent
    rcases nullable_eq_valid read with absent | ⟨m, e, read⟩
    · cases absent
    injection e with e
    subst e
    obtain ⟨rfl, -⟩ := resolve?_eq_some_iff.1 resolved
    have few := fewDigits_of_read (Json.isBounded_of_field? bounded found) read
    exact ⟨few.1 _ rfl, few.2 _ rfl⟩

end InvocationDescriptor

/-! ## All lines -/

/-- A line of a file with its number, as a file of `n` bytes can give it. -/
def DescriptorLine.IsMeasured (n : Nat) : DescriptorLine → Prop
  | .loaded d => d.IsMeasured n
  | .notJson line => line ≤ n
  | .notDescriptor line _ => line ≤ n

theorem DescriptorLine.isMeasured_of_read? {n number : Nat} {raw : List UInt8}
    {line : DescriptorLine} (short : raw.length ≤ n) (early : number ≤ n)
    (h : read? number raw = some line) : line.IsMeasured n := by
  simp only [read?] at h
  split at h
  · cases h
  injection h with h
  subst h
  rw [DescriptorLine.read]
  split
  · exact early
  · rename_i v parsed
    split
    · rename_i d read
      obtain ⟨cs, decoded, parsed⟩ := Option.bind_eq_some_iff.1 parsed
      have small : cs.length ≤ n := Nat.le_trans (Text.length_le_of_decodeUtf8? decoded)
        (Nat.le_trans (Text.length_trimBoth_le _ raw) short)
      have measured := InvocationDescriptor.isMeasured_of_read (Json.isBounded_of_parse? parsed)
        (toExcept_eq_ok read)
      exact ⟨Nat.le_trans measured.parameters small, measured.position⟩
    · exact early

namespace DescriptorBatch

theorem isMeasured_of_mem_readLines {n number : Nat} {raw : List (List UInt8)}
    (short : ∀ r ∈ raw, r.length ≤ n) (early : number + raw.length ≤ n + 1)
    {line : DescriptorLine} (mem : line ∈ readLines number raw) : line.IsMeasured n := by
  induction raw generalizing number with
  | nil => cases mem
  | cons r raw ih =>
    rw [List.length_cons] at early
    rw [readLines, List.mem_append, Option.mem_toList] at mem
    rcases mem with mem | mem
    · exact DescriptorLine.isMeasured_of_read? (short r List.mem_cons_self) (by omega) mem
    · exact ih (fun s inside => short s (List.mem_cons_of_mem _ inside)) (by omega) mem

theorem length_readLines_le (number : Nat) (raw : List (List UInt8)) :
    (readLines number raw).length ≤ raw.length := by
  induction raw generalizing number with
  | nil => exact Nat.le_refl _
  | cons r raw ih =>
    have later := ih (number + 1)
    have one : (DescriptorLine.read? number r).toList.length ≤ 1 := by
      cases DescriptorLine.read? number r <;> simp
    rw [readLines, List.length_append, List.length_cons]
    omega

theorem isMeasured_of_mem_ofBytes {bytes : List UInt8} {line : DescriptorLine}
    (mem : line ∈ (ofBytes bytes).lines) : line.IsMeasured bytes.length := by
  have count := Text.length_splitLines_le bytes
  exact isMeasured_of_mem_readLines (fun _ inside => Text.length_of_mem_splitLines inside)
    (by omega) mem

/-- Every descriptor of a file is measured by the size of the file. -/
theorem isMeasured_of_mem_descriptors {bytes : List UInt8} {d : InvocationDescriptor}
    (mem : d ∈ (ofBytes bytes).descriptors) : d.IsMeasured bytes.length := by
  obtain ⟨line, inside, loaded⟩ := List.mem_filterMap.1 mem
  have measured := isMeasured_of_mem_ofBytes inside
  cases line with
  | loaded d' =>
    injection loaded with e
    rw [← e]
    exact measured
  | notJson line => cases loaded
  | notDescriptor line failure => cases loaded

theorem length_descriptors_le (bytes : List UInt8) :
    (ofBytes bytes).descriptors.length ≤ bytes.length :=
  Nat.le_trans (List.length_filterMap_le _ _)
    (Nat.le_trans (length_readLines_le 1 _) (Text.length_splitLines_le bytes))

/-- The number of an unreadable line is at most the size of the file. -/
theorem line_le_of_mem_errors {bytes : List UInt8} {f : RecordFailure}
    (mem : f ∈ (ofBytes bytes).errors) : ∃ line : Nat, f.line = some (line : Int) ∧
      line ≤ bytes.length := by
  obtain ⟨line, inside, failure⟩ := List.mem_filterMap.1 mem
  have measured := isMeasured_of_mem_ofBytes inside
  cases line with
  | loaded d => cases failure
  | notJson line =>
    injection failure with e
    exact ⟨line, by rw [← e], measured⟩
  | notDescriptor line reason =>
    injection failure with e
    exact ⟨line, by rw [← e], measured⟩

end DescriptorBatch

end CallSiteIds
