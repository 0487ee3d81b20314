import CallSiteIds.Journal
import CallSiteIds.Location.Key
import CallSiteIds.Manifest
import CallSiteIds.Marker

/-!
# Collecting call sites

Descriptors whose method has a marked parameter are candidates.  Each candidate meets exactly
one fate, in the order of the descriptors: its marker is malformed, its place is unknown, its
call site was already kept, or it is kept.  A candidate that is not kept never stands in the
way of a later one.
-/

set_option autoImplicit false

namespace CallSiteIds

namespace SourceLocation

def key (l : SourceLocation) : String :=
  String.ofList (Location.keyText l.path.toList l.line l.column)

/-- A location has the key of its position. -/
theorem key_eq (l : SourceLocation) :
    (Location.Position.mk l.path l.line l.column).key = .ok l.key := by
  have : ¬((l.line : Int) < 0 ∨ (l.column : Int) < 0) := by omega
  simp only [Location.Position.key, if_neg this, key]

end SourceLocation

/-- Why a candidate gives no record: the arguments of a marker, with the parameter and the
method it belongs to. -/
structure MalformedMarker where
  parameter : String
  target : String
  error : Marker.ArgumentError

/-- The wording of a malformed marker. -/
def MalformedMarker.message (m : MalformedMarker) : String :=
  "Parameter '" ++ m.parameter ++ "' of " ++ m.target ++ ": " ++ m.error.message

namespace InvocationDescriptor

/-- Tells whether some parameter is marked. -/
def isCandidate (names : List String) (d : InvocationDescriptor) : Bool :=
  d.parameters.any fun p => (Marker.find? names p).isSome

/-- The marked parameters among the given ones, the first of which has the given position. -/
def markedFrom (names : List String) (target : String) :
    Nat → List ParameterDescriptor → Except MalformedMarker (List MarkedParameter)
  | _, [] => .ok []
  | ordinal, p :: rest =>
    match Marker.find? names p with
    | none => markedFrom names target (ordinal + 1) rest
    | some a =>
      match Marker.decode a with
      | .error e => .error ⟨p.name, target, e⟩
      | .ok config =>
        match markedFrom names target (ordinal + 1) rest with
        | .error e => .error e
        | .ok marked =>
          .ok (⟨ordinal, .settled config.format, config.lead, config.deterministic⟩ :: marked)

/-- The marked parameters of a descriptor, or the first malformed marker. -/
def marked (names : List String) (d : InvocationDescriptor) :
    Except MalformedMarker (List MarkedParameter) :=
  markedFrom names d.target 0 d.parameters

/-- The record of a descriptor: none when no parameter is marked or the place is unknown. -/
def record? (names : List String) (d : InvocationDescriptor) :
    Except MalformedMarker (Option CallSiteRecord) :=
  match d.marked names with
  | .error e => .error e
  | .ok [] => .ok none
  | .ok (m :: ms) =>
    .ok <| d.sourceLocation?.map fun location =>
      { targetType := d.targetType
        methodName := d.methodName
        returnType := d.returnType
        isStatic := d.isStatic
        location := location
        locationKey := location.key
        interceptsData := d.interceptsData
        parameters := d.parameters.map ParameterDescriptor.info
        markedParameters := m :: ms }

/-- The key of the place of a descriptor, if that is known. -/
def locationKey? (d : InvocationDescriptor) : Option String :=
  d.sourceLocation?.map SourceLocation.key

end InvocationDescriptor

/-- What became of a candidate. -/
inductive Fate where
  | kept (record : CallSiteRecord)
  | malformed (locationKey : Option String) (marker : MalformedMarker)
  | unlocated (target : String)
  | repeated (locationKey target : String)

namespace Fate

/-- The record of a kept candidate. -/
def record? : Fate → Option CallSiteRecord
  | kept r => some r
  | _ => none

/-- The report of a candidate that was dropped. -/
def dropped? : Fate → Option RecordFailure
  | unlocated target =>
    some ⟨none, some target, none, "Call site has no resolvable source location."⟩
  | repeated key target => some ⟨some key, some target, none, "Duplicate call site."⟩
  | _ => none

/-- The report of a malformed candidate. -/
def failure? : Fate → Option RecordFailure
  | malformed key marker => some ⟨key, some marker.target, none, marker.message⟩
  | _ => none

/-- The log line of a candidate. -/
def log? : Fate → Option LogLine
  | kept _ => none
  | malformed key marker => some ⟨.error, "collect.collector",
      "Cannot intercept call to " ++ marker.target ++ " at " ++
        key.getD "<unknown location>" ++ ": " ++ marker.message⟩
  | unlocated target => some ⟨.warning, "collect.collector",
      "Dropping call to " ++ target ++ ": no resolvable source location"⟩
  | repeated key target => some ⟨.warning, "collect.collector",
      "Dropping duplicate call site " ++ key ++ " for " ++ target⟩

/-- The fate of a candidate after candidates with the given keys were kept. -/
def ofCandidate (names : List String) (seen : List String) (d : InvocationDescriptor) : Fate :=
  match d.record? names with
  | .error marker => malformed d.locationKey? marker
  | .ok none => unlocated d.target
  | .ok (some r) => if r.locationKey ∈ seen then repeated r.locationKey d.target else kept r

end Fate

/-- What became of all candidates, in order. -/
structure Collection where
  fates : List Fate

namespace Collection

/-- The fates of the candidates after candidates with the given keys were kept. -/
def fatesFrom (names : List String) : List String → List InvocationDescriptor → List Fate
  | _, [] => []
  | seen, d :: rest =>
    if d.isCandidate names then
      let fate := Fate.ofCandidate names seen d
      let seen := match fate with
        | .kept r => r.locationKey :: seen
        | _ => seen
      fate :: fatesFrom names seen rest
    else fatesFrom names seen rest

def ofDescriptors (names : List String) (ds : List InvocationDescriptor) : Collection :=
  ⟨fatesFrom names [] ds⟩

/-- The number of candidates. -/
def candidateCount (c : Collection) : Nat :=
  c.fates.length

/-- The records of the kept candidates. -/
def records (c : Collection) : List CallSiteRecord :=
  c.fates.filterMap Fate.record?

/-- The reports of the dropped candidates. -/
def dropped (c : Collection) : List RecordFailure :=
  c.fates.filterMap Fate.dropped?

/-- The reports of the malformed candidates. -/
def failures (c : Collection) : List RecordFailure :=
  c.fates.filterMap Fate.failure?

def logLines (c : Collection) : List LogLine :=
  c.fates.filterMap Fate.log? ++
    [⟨.info, "collect.collector",
      "Collected " ++ Decimal.integerString c.records.length ++ " call sites from " ++
        Decimal.integerString c.candidateCount ++ " candidates (" ++
        Decimal.integerString c.dropped.length ++ " dropped, " ++
        Decimal.integerString c.failures.length ++ " failed)"⟩]

end Collection

end CallSiteIds
