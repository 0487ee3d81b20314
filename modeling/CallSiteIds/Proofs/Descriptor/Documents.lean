import CallSiteIds.Descriptor.Batch
import CallSiteIds.Proofs.Json.RoundTrip

/-!
# Descriptor files as lists of documents

The descriptors of a file are those of its lines, each line read on its own.  So reordering the
lines reorders the descriptors (`perm_descriptors`), and a file that was written with one
document per line gives the descriptors of the documents (`descriptors_linesText`).
-/

set_option autoImplicit false

namespace CallSiteIds

open Json (Value IsPlain sortFields)

/-! ## Line by line -/

/-- The descriptor that a raw line gives, whatever its number. -/
def DescriptorLine.descriptorOf? (raw : List UInt8) : Option InvocationDescriptor :=
  (read? 1 raw).bind descriptor?

/-- The number of a line does not change its descriptor. -/
theorem DescriptorLine.bind_descriptor?_read? (number : Nat) (raw : List UInt8) :
    (read? number raw).bind descriptor? = descriptorOf? raw := by
  simp only [descriptorOf?, read?]
  split
  · rfl
  · simp only [Option.bind_some, read]
    split
    · rfl
    · split <;> rfl

namespace DescriptorBatch

/-- The descriptors of raw lines are those of the single lines. -/
theorem descriptors_ofLines (raw : List (List UInt8)) :
    (ofLines raw).descriptors = raw.filterMap DescriptorLine.descriptorOf? := by
  have along : ∀ number, (readLines number raw).filterMap DescriptorLine.descriptor? =
      raw.filterMap DescriptorLine.descriptorOf? := by
    induction raw with
    | nil => exact fun _ => rfl
    | cons line rest ih =>
      intro number
      have one := DescriptorLine.bind_descriptor?_read? number line
      rw [readLines, List.filterMap_append, ih (number + 1), List.filterMap_cons, ← one]
      cases read : DescriptorLine.read? number line with
      | none => rfl
      | some result =>
        cases loaded : result.descriptor? with
        | none => simp [loaded]
        | some d => simp [loaded]
  exact along 1

/-- Reordering the lines of a file reorders its descriptors. -/
theorem perm_descriptors {bytes bytes' : List UInt8}
    (perm : (Text.splitLines bytes).Perm (Text.splitLines bytes')) :
    (ofBytes bytes).descriptors.Perm (ofBytes bytes').descriptors := by
  rw [ofBytes, ofBytes, descriptors_ofLines, descriptors_ofLines]
  exact perm.filterMap _

end DescriptorBatch

/-! ## Written documents -/

/-- A text on one line holds neither of the bytes that end a line. -/
theorem Text.ne_terminator_of_isOneLine {cs : List Char} (line : Json.IsOneLine cs) {b : UInt8}
    (mem : b ∈ Text.encodeUtf8 cs) : b ≠ Text.lineFeed ∧ b ≠ Text.carriageReturn := by
  obtain ⟨c, inside, encoded⟩ := List.mem_flatMap.1 mem
  have printable := line c inside
  have size := Text.eq_or_ge_of_mem_utf8EncodeChar encoded
  constructor
  · rintro rfl
    have : Text.lineFeed.toNat = 10 := rfl
    omega
  · rintro rfl
    have : Text.carriageReturn.toNat = 13 := rfl
    omega

/-- What stands in front of the end of a line is that line. -/
theorem Text.splitLines_append {line : List UInt8}
    (h : ∀ b ∈ line, b ≠ lineFeed ∧ b ≠ carriageReturn) {ending : List UInt8}
    {lines : List (List UInt8)} (ends : splitLines ending = [] :: lines) :
    splitLines (line ++ ending) = line :: lines := by
  induction line with
  | nil => exact ends
  | cons b line ih =>
    obtain ⟨feed, carriage⟩ := h b List.mem_cons_self
    rw [List.cons_append, splitLines.eq_def]
    simp only
    rw [if_neg feed, if_neg carriage, ih fun c mem => h c (List.mem_cons_of_mem _ mem)]
    rfl

theorem Text.splitLines_lineFeed (rest : List UInt8) :
    splitLines (lineFeed :: rest) = [] :: splitLines rest := by
  rw [splitLines.eq_def]
  simp only
  rw [if_pos True.intro]

/-- The lines of a file with one document per line are the compact forms. -/
theorem Text.splitLines_linesText (vs : List Value) :
    splitLines (encodeUtf8 (Json.linesText vs)) = vs.map fun v => encodeUtf8 (Json.compact v) := by
  induction vs with
  | nil => rfl
  | cons v vs ih =>
    have line := Json.isOneLine_compact v
    have feed : encodeUtf8 ['\n'] = [lineFeed] := rfl
    rw [Json.linesText, List.flatMap_cons, encodeUtf8_append, encodeUtf8_append, feed,
      List.append_assoc, List.singleton_append,
      splitLines_append (fun b mem => ne_terminator_of_isOneLine line mem)
        (splitLines_lineFeed _), List.map_cons]
    exact congrArg _ ih

def InvocationDescriptor.ofDocument? (v : Value) : Option InvocationDescriptor :=
  match read (sortFields v) with
  | .valid d => some d
  | .invalid _ => none

/-- A line with a plain object gives the descriptor of the object. -/
theorem DescriptorLine.descriptorOf?_compact {fields : List (String × Value)}
    (plain : IsPlain (.object fields))
    (deep : Json.nesting (.object fields) ≤ Json.Rules.strict.depthLimit) :
    descriptorOf? (Text.encodeUtf8 (Json.compact (.object fields))) =
      InvocationDescriptor.ofDocument? (.object fields) := by
  have visible : (Text.encodeUtf8 (Json.compact (.object fields))).isEmpty = false := by
    rw [Json.compact]
    rfl
  rw [descriptorOf?, read?]
  simp only [Json.trimBoth_object, visible, Bool.false_eq_true, if_false, Option.bind_some, read,
    Json.parseBytes?_compact plain deep]
  rw [InvocationDescriptor.ofDocument?]
  cases InvocationDescriptor.read (sortFields (.object fields)) <;> rfl

/-- A file with one plain object per line gives the descriptors of the objects. -/
theorem DescriptorBatch.descriptors_linesText {vs : List Value}
    (objects : ∀ v ∈ vs, ∃ fields, v = .object fields) (plain : ∀ v ∈ vs, IsPlain v)
    (deep : ∀ v ∈ vs, Json.nesting v ≤ Json.Rules.strict.depthLimit) :
    (ofBytes (Text.encodeUtf8 (Json.linesText vs))).descriptors =
      vs.filterMap InvocationDescriptor.ofDocument? := by
  rw [ofBytes, Text.splitLines_linesText, descriptors_ofLines, List.filterMap_map]
  induction vs with
  | nil => rfl
  | cons v vs ih =>
    have later := ih (fun w mem => objects w (List.mem_cons_of_mem _ mem))
      (fun w mem => plain w (List.mem_cons_of_mem _ mem))
      fun w mem => deep w (List.mem_cons_of_mem _ mem)
    obtain ⟨fields, rfl⟩ := objects v List.mem_cons_self
    have first := DescriptorLine.descriptorOf?_compact (plain _ List.mem_cons_self)
      (deep _ List.mem_cons_self)
    rw [List.filterMap_cons, List.filterMap_cons, Function.comp_apply, first, later]

end CallSiteIds
