import CallSiteIds.Proofs.Descriptor.Documents
import CallSiteIds.Proofs.Pass.Plans

/-!
# Files of calls

The simplest descriptor files hold static calls with one marked parameter, one on each line.
Such a file is read as its calls (`descriptors_callFile`), each of which builds a record
(`builtRecords_callFile`), and reordering the calls reorders the lines.
-/

set_option autoImplicit false

namespace CallSiteIds

/-- A static call with one marked parameter as a host describes it. -/
def markedCall (methodName : String) (line : Nat) : Json.Value :=
  .object
    [("target_type", .string "N.A"), ("method_name", .string methodName),
      ("return_type", .string "void"),
      ("location", .object [("path", .string "a.cs"), ("line", .int line), ("column", .int 2)]),
      ("parameters",
        .array
          [.object
            [("name", .string "id"), ("type", .string "string"),
              ("attributes", .array [.object [("name", .string "UniqueId")]])]])]

def markedDescriptor (methodName : String) (line : Nat) : InvocationDescriptor where
  targetType := "N.A"
  methodName := methodName
  returnType := "void"
  isStatic := true
  location := some ⟨some "a.cs", some line, some 2⟩
  interceptsData := none
  parameters := [⟨"id", "string", false, none, [⟨"UniqueId", [], []⟩]⟩]

def markedRecord (methodName : String) (line : Nat) : CallSiteRecord where
  targetType := "N.A"
  methodName := methodName
  returnType := "void"
  isStatic := true
  location := ⟨"a.cs", line, 2⟩
  locationKey := SourceLocation.key ⟨"a.cs", line, 2⟩
  interceptsData := none
  parameters := [⟨"id", "string", false, none⟩]
  markedParameters := [⟨0, .settled .guid, none, true⟩]

theorem isPlain_markedCall {line : Nat} (fits : Json.fitsWord line = true) (methodName : String) :
    Json.IsPlain (markedCall methodName line) := by
  simp [markedCall, Json.IsPlain, Json.HavePlainValues, Json.ArePlain, fits]
  decide

theorem ofDocument?_markedCall (methodName : String) (line : Nat) :
    InvocationDescriptor.ofDocument? (markedCall methodName line) =
      some (markedDescriptor methodName line) := by
  rw [InvocationDescriptor.ofDocument?, markedCall]
  simp [Json.sortFields, Json.sortFieldsOfItems, Json.sortFieldsOfValues, List.mergeSort,
    Json.fieldLe, InvocationDescriptor.read, Schema.model, Schema.field, Schema.fieldOr,
    Json.field?]
  rfl

theorem built?_markedDescriptor (methodName : String) (line : Nat) :
    (markedDescriptor methodName line).built? Config.usual.markerNames =
      some (markedRecord methodName line) := rfl

/-- A file with such calls, one on each line. -/
def callFile (calls : List (String × Nat)) : List UInt8 :=
  Text.encodeUtf8 (Json.linesText (calls.map fun c => markedCall c.1 c.2))

section CallFile

variable {calls : List (String × Nat)}
  (fits : ∀ c ∈ calls, Json.fitsWord (c.2 : Int) = true)

include fits

theorem isPlain_of_mem_calls :
    ∀ v ∈ calls.map (fun c => markedCall c.1 c.2), Json.IsPlain v := by
  intro v mem
  obtain ⟨c, inside, rfl⟩ := List.mem_map.1 mem
  exact isPlain_markedCall (fits c inside) _

theorem descriptors_callFile :
    (DescriptorBatch.ofBytes (callFile calls)).descriptors =
      calls.map fun c => markedDescriptor c.1 c.2 := by
  rw [callFile, DescriptorBatch.descriptors_linesText _ (isPlain_of_mem_calls fits)]
  · rw [List.filterMap_map]
    have each : InvocationDescriptor.ofDocument? ∘ (fun c : String × Nat => markedCall c.1 c.2) =
        some ∘ fun c => markedDescriptor c.1 c.2 :=
      funext fun c => ofDocument?_markedCall c.1 c.2
    rw [each, List.filterMap_eq_map]
  · intro v mem
    obtain ⟨c, -, rfl⟩ := List.mem_map.1 mem
    have depth : Json.nesting (markedCall c.1 c.2) = 5 := rfl
    rw [depth]
    decide
  · intro v mem
    obtain ⟨c, -, rfl⟩ := List.mem_map.1 mem
    exact ⟨_, rfl⟩

theorem builtRecords_callFile :
    builtRecords Config.usual (callFile calls) = calls.map fun c => markedRecord c.1 c.2 := by
  rw [builtRecords, descriptors_callFile fits, Collection.builtBy, List.filterMap_map]
  have each : InvocationDescriptor.built? Config.usual.markerNames ∘
      (fun c : String × Nat => markedDescriptor c.1 c.2) = some ∘ fun c => markedRecord c.1 c.2 :=
    funext fun c => built?_markedDescriptor c.1 c.2
  rw [each, List.filterMap_eq_map]

end CallFile

/-- Reordering the calls reorders the lines of their file. -/
theorem perm_splitLines_callFile {calls others : List (String × Nat)} (perm : calls.Perm others) :
    (Text.splitLines (callFile calls)).Perm (Text.splitLines (callFile others)) := by
  rw [callFile, callFile, Text.splitLines_linesText, Text.splitLines_linesText]
  exact (perm.map _).map _

end CallSiteIds
