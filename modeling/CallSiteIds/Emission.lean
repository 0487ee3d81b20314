import CallSiteIds.Journal
import CallSiteIds.Literal.Derivation
import CallSiteIds.Manifest
import CallSiteIds.Source.Unit

/-!
# Emitting routines

Every record gives one routine and one manifest record, numbered in order.  A record with a
format that cannot be settled gives a failure instead and leaves no trace in the others.  Before
a file is generated the records are sorted by path, line, column, type and method.
-/

set_option autoImplicit false

namespace CallSiteIds

open Source

namespace CallSiteRecord

/-- The literals of the given marked parameters, or the first format that cannot be settled. -/
def literalsOf (r : CallSiteRecord) :
    List MarkedParameter → Except Literal.FormatError (List LiteralAssignment)
  | [] => .ok []
  | m :: rest =>
    match m.format.resolve with
    | .error e => .error e
    | .ok f =>
      match r.literalsOf rest with
      | .error e => .error e
      | .ok assignments =>
        .ok
          ({ parameter := (r.parameters[m.ordinal]?.map (·.name)).getD ""
             ordinal := m.ordinal
             format := f.displayName
             lead := m.lead
             literal := Literal.literal r.locationKey m.ordinal f m.lead } :: assignments)

def literals (r : CallSiteRecord) : Except Literal.FormatError (List LiteralAssignment) :=
  r.literalsOf r.markedParameters

end CallSiteRecord

/-- The literal that assignments give to a position; of several the last counts. -/
def literalAt? (assignments : List LiteralAssignment) (ordinal : Nat) : Option String :=
  (assignments.reverse.find? fun a => a.ordinal == (ordinal : Int)).map (·.literal)

/-- The routine of a record with a number. -/
def CallSiteRecord.routine (r : CallSiteRecord) (index : Nat)
    (assignments : List LiteralAssignment) : Routine where
  name := String.ofList (toIdentifier r.methodName.toList) ++ "_" ++ Decimal.integerString index
  tag := tagText r.location r.interceptsData
  returnType := r.returnType
  callee := calleeText r.targetType r.methodName r.isStatic
  parameters :=
    (if r.isStatic then [] else [receiverText r.targetType]) ++ r.parameters.map parameterText
  arguments := r.parameters.zipIdx.map fun (p, i) => ⟨p.name, literalAt? assignments i⟩

/-- The manifest record of a routine. -/
def CallSiteRecord.intercept (r : CallSiteRecord) (routineName : String)
    (assignments : List LiteralAssignment) : InterceptRecord where
  schemaVersion := schemaVersion
  routineName := routineName
  target := r.target
  returnType := r.returnType
  locationKey := r.locationKey
  interceptsData := r.interceptsData
  literals := assignments

/-- What a record gives. -/
inductive Emitted where
  | routine (routine : Routine) (intercept : InterceptRecord)
  | skipped (locationKey target : String) (error : Literal.FormatError)

namespace Emitted

def routine? : Emitted → Option Routine
  | routine r _ => some r
  | _ => none

/-- The manifest record of a record. -/
def intercept? : Emitted → Option InterceptRecord
  | routine _ i => some i
  | _ => none

def failure? : Emitted → Option RecordFailure
  | routine .. => none
  | skipped key target e => some ⟨some key, some target, none, e.message⟩

def log? : Emitted → Option LogLine
  | routine .. => none
  | skipped key target e => some ⟨.error, "artifacts.generators.interceptors",
      "Skipping interceptor for " ++ target ++ " at " ++ key ++ ": " ++ e.message⟩

/-- What a record gives when the next routine has the given number. -/
def ofRecord (index : Nat) (r : CallSiteRecord) : Emitted :=
  match r.literals with
  | .error e => skipped r.locationKey r.target e
  | .ok assignments =>
    let made := r.routine index assignments
    routine made (r.intercept made.name assignments)

end Emitted

/-- What all records give, in order. -/
structure Emission where
  options : UnitOptions
  emitted : List Emitted

namespace Emission

/-- What records give when the next routine has the given number. -/
def emitFrom : Nat → List CallSiteRecord → List Emitted
  | _, [] => []
  | index, r :: rest =>
    match Emitted.ofRecord index r with
    | .skipped key target e => .skipped key target e :: emitFrom index rest
    | .routine made i => .routine made i :: emitFrom (index + 1) rest

/-- Emits records in the given order. -/
def ofRecords (options : UnitOptions) (rs : List CallSiteRecord) : Emission :=
  ⟨options, emitFrom 0 rs⟩

def routines (e : Emission) : List Routine :=
  e.emitted.filterMap Emitted.routine?

/-- The manifest. -/
def intercepts (e : Emission) : List InterceptRecord :=
  e.emitted.filterMap Emitted.intercept?

/-- The records that were left out. -/
def failures (e : Emission) : List RecordFailure :=
  e.emitted.filterMap Emitted.failure?

/-- The generated file. -/
def source (e : Emission) : String :=
  unitText e.options (e.routines.map Routine.lines)

def logLines (e : Emission) : List LogLine :=
  e.emitted.filterMap Emitted.log? ++
    [⟨.info, "artifacts.generators.interceptors",
      "Emitted " ++ Decimal.integerString e.intercepts.length ++ " interceptors (" ++
        Decimal.integerString e.failures.length ++ " failed)"⟩]

end Emission

/-! ## Order -/

namespace CallSiteRecord

/-- The first decision of two comparisons. -/
def thenBy (first second : Ordering) : Ordering :=
  match first with
  | .eq => second
  | o => o

/-- The order of two texts by their characters. -/
def compareTexts (a b : String) : Ordering :=
  compareOfLessAndEq a b

/-- The order of two records by path, line, column, type and method. -/
def compare (a b : CallSiteRecord) : Ordering :=
  thenBy (compareTexts a.location.path b.location.path) <|
  thenBy (compareOfLessAndEq a.location.line b.location.line) <|
  thenBy (compareOfLessAndEq a.location.column b.location.column) <|
  thenBy (compareTexts a.targetType b.targetType) <|
  compareTexts a.methodName b.methodName

/-- Tells whether a record may come before another. -/
def le (a b : CallSiteRecord) : Bool :=
  compare a b != .gt

/-- Records in their order; equal ones stay as they were. -/
def sorted (rs : List CallSiteRecord) : List CallSiteRecord :=
  rs.mergeSort le

end CallSiteRecord

/-- Emits records in their order. -/
def Emission.generate (options : UnitOptions) (rs : List CallSiteRecord) : Emission :=
  Emission.ofRecords options (CallSiteRecord.sorted rs)

end CallSiteIds
