import CallSiteIds.Proofs.Descriptor.Bounds
import CallSiteIds.Proofs.Descriptor.Lines

/-!
# Every line is read alone

What a line of a descriptor file gives depends on the line and its number only.  So lines that are
read after others give what they give alone, with other numbers in the reports, and which of the
terminators ends a line makes no difference (`isolates_lines`).  A descriptor that is read marks
each of its default literals.
-/

set_option autoImplicit false

namespace CallSiteIds

open Schema
open Schema.Checked (andThen_eq_valid toExcept_eq_ok)

/-! ## Lines with their ends -/

namespace Text

/-- The ways to end a line. -/
inductive Terminator where
  | feed
  | carriage
  | carriageFeed

def Terminator.bytes : Terminator → List UInt8
  | feed => [lineFeed]
  | carriage => [carriageReturn]
  | carriageFeed => [carriageReturn, lineFeed]

/-- A line that is not empty and holds neither of the bytes that end lines, with its end. -/
structure EndedLine where
  text : List UInt8
  terminator : Terminator
  nonempty : text ≠ []
  clean : ∀ b ∈ text, b ≠ lineFeed ∧ b ≠ carriageReturn

def EndedLine.bytes (l : EndedLine) : List UInt8 :=
  l.text ++ l.terminator.bytes

/-- A terminator ends a line; a line feed behind it would belong to it. -/
theorem splitLines_terminator (t : Terminator) {rest : List UInt8}
    (apart : rest.head? ≠ some lineFeed) :
    splitLines (t.bytes ++ rest) = [] :: splitLines rest := by
  cases t with
  | feed => exact splitLines_lineFeed rest
  | carriage =>
    cases rest with
    | nil => rfl
    | cons c rest =>
      have other : c ≠ lineFeed := fun same => apart (congrArg some same)
      show splitLines (carriageReturn :: c :: rest) = _
      rw [splitLines.eq_def]
      simp only
      rw [if_neg (by decide), if_pos True.intro, if_neg other]
  | carriageFeed =>
    show splitLines (carriageReturn :: lineFeed :: rest) = _
    rw [splitLines.eq_def]
    simp only
    rw [if_neg (by decide), if_pos True.intro, if_pos True.intro]

/-- No line begins with a line feed, which a carriage return in front could take. -/
theorem head?_flatMap_bytes (ls : List EndedLine) :
    (ls.flatMap EndedLine.bytes).head? ≠ some lineFeed := by
  cases ls with
  | nil => nofun
  | cons l ls =>
    obtain ⟨b, text, cut⟩ := List.exists_cons_of_ne_nil l.nonempty
    have first := (l.clean b (by rw [cut]; exact List.mem_cons_self)).1
    rw [List.flatMap_cons, EndedLine.bytes, cut]
    intro same
    injection same with same
    exact first same

/-- Lines are split as they were ended, each with any of the terminators. -/
theorem splitLines_flatMap_bytes (ls : List EndedLine) :
    splitLines (ls.flatMap EndedLine.bytes) = ls.map (·.text) := by
  induction ls with
  | nil => rfl
  | cons l ls ih =>
    rw [List.flatMap_cons, EndedLine.bytes, List.append_assoc, List.map_cons, ← ih]
    exact splitLines_append l.clean (splitLines_terminator l.terminator (head?_flatMap_bytes ls))

end Text

/-! ## Numbers of lines -/

/-- A report on the line that stands some lines later. -/
def RecordFailure.later (k : Nat) (f : RecordFailure) : RecordFailure :=
  { f with line := f.line.map (· + k) }

namespace DescriptorLine

/-- What the same line gives some lines later. -/
def later (k : Nat) : DescriptorLine → DescriptorLine
  | loaded d => loaded d
  | notJson line => notJson (line + k)
  | notDescriptor line failure => notDescriptor (line + k) failure

theorem descriptor?_later (k : Nat) (l : DescriptorLine) :
    (l.later k).descriptor? = l.descriptor? := by
  cases l <;> rfl

theorem failure?_later (k : Nat) (l : DescriptorLine) :
    (l.later k).failure? = l.failure?.map (RecordFailure.later k) := by
  cases l <;> simp [later, failure?, RecordFailure.later]

theorem read?_later (k number : Nat) (raw : List UInt8) :
    read? (number + k) raw = (read? number raw).map (later k) := by
  simp only [read?]
  split
  · rfl
  · simp only [Option.map_some, read]
    split
    · rfl
    · split <;> rfl

end DescriptorLine

namespace DescriptorBatch

open DescriptorLine (isVisible isUnreadable Reads Reports descriptorOf? read?_later
  descriptor?_later failure?_later)

theorem readLines_later (k number : Nat) (raw : List (List UInt8)) :
    readLines (number + k) raw = (readLines number raw).map (DescriptorLine.later k) := by
  induction raw generalizing number with
  | nil => rfl
  | cons line raw ih =>
    have next : number + k + 1 = number + 1 + k := by omega
    rw [readLines, readLines, read?_later, next, ih, List.map_append, Option.toList_map]

/-- Lines that are read after others give what they give alone, some lines later. -/
theorem lines_append (xs ys : List (List UInt8)) :
    (ofLines (xs ++ ys)).lines =
      (ofLines xs).lines ++ (ofLines ys).lines.map (DescriptorLine.later xs.length) := by
  unfold ofLines
  rw [readLines_append, readLines_later]

theorem descriptors_append (xs ys : List (List UInt8)) :
    (ofLines (xs ++ ys)).descriptors = (ofLines xs).descriptors ++ (ofLines ys).descriptors := by
  have same : DescriptorLine.descriptor? ∘ DescriptorLine.later xs.length =
      DescriptorLine.descriptor? := funext fun l => descriptor?_later _ l
  unfold descriptors
  rw [lines_append, List.filterMap_append, List.filterMap_map, same]

theorem errors_append (xs ys : List (List UInt8)) :
    (ofLines (xs ++ ys)).errors =
      (ofLines xs).errors ++ (ofLines ys).errors.map (RecordFailure.later xs.length) := by
  have shifted : DescriptorLine.failure? ∘ DescriptorLine.later xs.length =
      fun l => l.failure?.map (RecordFailure.later xs.length) :=
    funext fun l => failure?_later _ l
  unfold errors
  rw [lines_append, List.filterMap_append, List.filterMap_map, shifted, List.map_filterMap]

/-- The raw lines of which something is left when they are trimmed, with numbers that count every
line from one. -/
def numberedLines (raw : List (List UInt8)) : List (List UInt8 × Nat) :=
  (raw.zipIdx 1).filter fun l => !(Text.trimBoth Text.isBlankByte l.1).isEmpty

/-- Each line with a number gives one result, its descriptor or a report with the number. -/
structure ReadsEach (raw : List (List UInt8)) (b : DescriptorBatch) : Prop where
  lines : List.Forall₂ Reads (numberedLines raw) b.lines
  descriptors : b.descriptors = (numberedLines raw).filterMap fun l => descriptorOf? l.1
  errors : List.Forall₂ Reports ((numberedLines raw).filter isUnreadable) b.errors
  count : (numberedLines raw).length = b.descriptors.length + b.errors.length

theorem readsEach_ofLines (raw : List (List UInt8)) : ReadsEach raw (ofLines raw) := by
  have visible : numberedLines raw = (raw.zipIdx 1).filter isVisible := by
    unfold numberedLines isVisible
    simp only [Text.isEmpty_trimBoth]
  have reads := reads_visible 1 raw
  rw [← visible] at reads
  obtain ⟨descriptors, errors, count⟩ := accounts_of_reads reads
  exact ⟨reads, descriptors, errors, count⟩

end DescriptorBatch

/-! ## Default literals -/

/-- A parameter with a default literal says that it has a default. -/
def ParameterDescriptor.FlagsDefault (p : ParameterDescriptor) : Prop :=
  p.defaultLiteral.isSome = true → p.hasDefault = true

theorem ParameterDescriptor.flagsDefault_of_read {v : Json.Value} {p : ParameterDescriptor}
    (h : read v = .valid p) : p.FlagsDefault := by
  obtain ⟨q, -, checked⟩ := andThen_eq_valid h
  unfold checkDefault at checked
  split at checked
  · cases checked
  · rename_i flagged
    injection checked with same
    subst same
    intro literal
    simpa [literal] using flagged

theorem InvocationDescriptor.flagsDefault_of_read {v : Json.Value} {d : InvocationDescriptor}
    (h : read v = .valid d) : ∀ p ∈ d.parameters, p.FlagsDefault := by
  obtain ⟨fields, rfl, parts⟩ := hasParts_of_read h
  rcases fieldOr_eq_valid parts.parameters with absent | ⟨w, -, read⟩
  · rw [absent]
    nofun
  · obtain ⟨vs, rfl, read⟩ := list_eq_valid read
    exact forall_mem_of_items (fun _ _ => ParameterDescriptor.flagsDefault_of_read) read

namespace DescriptorBatch

open DescriptorLine (descriptorOf?)

theorem flagsDefault_of_mem_descriptors {raw : List (List UInt8)} {d : InvocationDescriptor}
    (mem : d ∈ (ofLines raw).descriptors) : ∀ p ∈ d.parameters, p.FlagsDefault := by
  rw [descriptors_ofLines] at mem
  obtain ⟨line, -, loaded⟩ := List.mem_filterMap.1 mem
  unfold descriptorOf? DescriptorLine.read? at loaded
  simp only at loaded
  split at loaded
  · cases loaded
  rw [Option.bind_some, DescriptorLine.read] at loaded
  split at loaded
  · cases loaded
  rename_i v _
  split at loaded
  · rename_i e readable
    injection loaded with same
    subst same
    exact InvocationDescriptor.flagsDefault_of_read (toExcept_eq_ok readable)
  · cases loaded

/-- Reading raw lines gives one descriptor or one report for each line that holds more than
blanks, in order; lines after others give what they give alone, with the numbers that they have
there; a file of ended lines gives what its lines give, however each is ended; and every
parameter of a descriptor that is read flags its default. -/
theorem isolates_lines :
    (∀ raw, ReadsEach raw (ofLines raw)) ∧
      (∀ xs ys, (ofLines (xs ++ ys)).descriptors =
          (ofLines xs).descriptors ++ (ofLines ys).descriptors ∧
        (ofLines (xs ++ ys)).errors =
          (ofLines xs).errors ++ (ofLines ys).errors.map (RecordFailure.later xs.length)) ∧
      (∀ ls : List Text.EndedLine,
        ofBytes (ls.flatMap Text.EndedLine.bytes) = ofLines (ls.map (·.text))) ∧
      ∀ raw, ∀ d ∈ (ofLines raw).descriptors, ∀ p ∈ d.parameters, p.FlagsDefault := by
  refine ⟨readsEach_ofLines, ?_, ?_, fun _ _ => flagsDefault_of_mem_descriptors⟩
  · intro xs ys
    exact ⟨descriptors_append xs ys, errors_append xs ys⟩
  · intro ls
    unfold ofBytes
    rw [Text.splitLines_flatMap_bytes]

/-- A descriptor whose only parameter has a default literal, with or without its flag. -/
def literalLine (flag : String) : List UInt8 :=
  Text.encodeUtf8 ("\x7b\"target_type\":\"T\",\"method_name\":\"M\",\"return_type\":\"\"," ++
    "\"parameters\":[\x7b\"name\":\"p\",\"type\":\"\",\"default_literal\":\"1\"" ++ flag ++
    "\x7d]\x7d").toList

/-- A descriptor, blanks, a byte that begins no character, and a default without a flag. -/
def mixedLines : List Text.EndedLine :=
  [⟨literalLine ",\"has_default\":true", .carriage, by decide +kernel, by decide +kernel⟩,
    ⟨[32, 9], .carriageFeed, List.cons_ne_nil _ _, by decide +kernel⟩,
    ⟨[255], .carriage, List.cons_ne_nil _ _, by decide +kernel⟩,
    ⟨literalLine "", .feed, by decide +kernel, by decide +kernel⟩]

/-- The reports on lines that are read twice name the third and the fourth line of either time. -/
theorem isolates_lines_of_mixedLines :
    let raw := mixedLines.map (·.text)
    ofBytes (mixedLines.flatMap Text.EndedLine.bytes) = ofLines raw ∧
      (ofLines raw).errors.map (·.line) = [some 3, some 4] ∧
      (ofLines (raw ++ raw)).errors.map (·.line) = [some 3, some 4, some 7, some 8] ∧
      ∃ d ∈ (ofLines raw).descriptors, ∃ p ∈ d.parameters,
        p.defaultLiteral = some "1" ∧ p.hasDefault = true := by
  intro raw
  obtain ⟨-, append, ended, flagged⟩ := isolates_lines
  obtain ⟨errors, literals⟩ : (ofLines raw).errors.map (·.line) = [some 3, some 4] ∧
      (ofLines raw).descriptors.flatMap (fun d => d.parameters.map (·.defaultLiteral)) =
        [some "1"] := by decide +kernel
  refine ⟨ended mixedLines, errors, ?_, ?_⟩
  · have four : raw.length = 4 := rfl
    have shifted : (·.line) ∘ RecordFailure.later 4 =
        (Option.map (· + 4) : Option Int → Option Int) ∘ (·.line) := rfl
    rw [(append raw raw).2, List.map_append, four, List.map_map, shifted, ← List.map_map, errors]
    rfl
  · have listed : some "1" ∈ (ofLines raw).descriptors.flatMap
        fun d => d.parameters.map (·.defaultLiteral) := by
      rw [literals]
      exact List.mem_cons_self
    obtain ⟨d, loaded, mem⟩ := List.mem_flatMap.1 listed
    obtain ⟨p, mem, literal⟩ := List.mem_map.1 mem
    exact ⟨d, loaded, p, mem, literal, flagged raw d loaded p mem (by rw [literal]; rfl)⟩

end DescriptorBatch

end CallSiteIds
