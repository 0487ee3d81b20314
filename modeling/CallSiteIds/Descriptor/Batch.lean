import CallSiteIds.Descriptor.Basic
import CallSiteIds.Journal
import CallSiteIds.Json.Reader
import CallSiteIds.Manifest
import CallSiteIds.Text.Lines

/-!
# Descriptor files

A descriptor file has one descriptor per line.  Each line that is not blank is read on its
own: it gives one descriptor or one error with the number of the line, and no line affects
another.
-/

set_option autoImplicit false

namespace CallSiteIds

/-- What one line of a descriptor file gives. -/
inductive DescriptorLine where
  | loaded (descriptor : InvocationDescriptor)
  | notJson (line : Nat)
  | notDescriptor (line : Nat) (failure : Schema.Failure)

namespace DescriptorLine

def descriptor? : DescriptorLine → Option InvocationDescriptor
  | loaded d => some d
  | _ => none

def failure? : DescriptorLine → Option RecordFailure
  | loaded _ => none
  | notJson line => some ⟨none, none, some line, "Invalid JSON."⟩
  | notDescriptor line failure =>
    some ⟨none, none, some line, "Schema validation failed: " ++ failure.message ++ "."⟩

def log? : DescriptorLine → Option LogLine
  | loaded _ => none
  | notJson line => some ⟨.error, "collect.descriptors",
      "Descriptor line " ++ Decimal.integerString line ++ " is not valid JSON"⟩
  | notDescriptor line failure => some ⟨.error, "collect.descriptors",
      "Descriptor line " ++ Decimal.integerString line ++ " failed validation: " ++
        failure.message⟩

/-- Reads a line that is not blank. -/
def read (number : Nat) (line : List UInt8) : DescriptorLine :=
  match Json.parseBytes? line with
  | none => notJson number
  | some v =>
    match (InvocationDescriptor.read v).toExcept "InvocationDescriptor" with
    | .ok d => loaded d
    | .error failure => notDescriptor number failure

/-- Reads a raw line, which is skipped when it is blank. -/
def read? (number : Nat) (raw : List UInt8) : Option DescriptorLine :=
  let line := Text.trimBoth Text.isBlankByte raw
  if line.isEmpty then none else some (read number line)

end DescriptorLine

/-- What a descriptor file gives. -/
structure DescriptorBatch where
  lines : List DescriptorLine

namespace DescriptorBatch

/-- Reads raw lines, the first with the given number. -/
def readLines : Nat → List (List UInt8) → List DescriptorLine
  | _, [] => []
  | number, raw :: rest =>
    (DescriptorLine.read? number raw).toList ++ readLines (number + 1) rest

/-- Reads the raw lines of a file. -/
def ofLines (raw : List (List UInt8)) : DescriptorBatch :=
  ⟨readLines 1 raw⟩

/-- Reads a file. -/
def ofBytes (bytes : List UInt8) : DescriptorBatch :=
  ofLines (Text.splitLines bytes)

/-- The descriptors in the order of their lines. -/
def descriptors (b : DescriptorBatch) : List InvocationDescriptor :=
  b.lines.filterMap DescriptorLine.descriptor?

/-- The unreadable lines in order. -/
def errors (b : DescriptorBatch) : List RecordFailure :=
  b.lines.filterMap DescriptorLine.failure?

/-- The log lines of reading a file with the given name. -/
def logLines (b : DescriptorBatch) (file : String) : List LogLine :=
  b.lines.filterMap DescriptorLine.log? ++
    [⟨.info, "collect.descriptors",
      "Loaded " ++ Decimal.integerString b.descriptors.length ++ " descriptors from " ++ file ++
        " (" ++ Decimal.integerString b.errors.length ++ " unreadable)"⟩]

/-- Lines read one after the other give what they give apart, with shifted numbers. -/
theorem readLines_append (number : Nat) (xs ys : List (List UInt8)) :
    readLines number (xs ++ ys) = readLines number xs ++ readLines (number + xs.length) ys := by
  induction xs generalizing number with
  | nil => simp [readLines]
  | cons x xs ih =>
    simp only [List.cons_append, readLines, ih, List.append_assoc, List.length_cons]
    rw [show number + 1 + xs.length = number + (xs.length + 1) by omega]

end DescriptorBatch

end CallSiteIds
