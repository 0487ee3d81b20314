import CallSiteIds.Collection
import CallSiteIds.Proofs.Emission.Routines

/-!
# Records that fail

A record fails when one of its formats is rejected.  It is reported with the first such format,
and the other records are emitted as if it had never been there: the numbers of the routines
count the records that are emitted, not those that are read (`isIsolated_ofRecords`).
-/

set_option autoImplicit false

namespace CallSiteIds

open Source

/-! ## Rejected formats -/

/-- Tells whether a request names no format. -/
def Literal.FormatRequest.isRejected (request : Literal.FormatRequest) : Bool :=
  match request.resolve with
  | .error _ => true
  | .ok _ => false

/-- The error of the first marked parameter whose format is rejected. -/
def FirstRejection (ms : List MarkedParameter) (e : Literal.FormatError) : Prop :=
  ∃ before m after, ms = before ++ m :: after ∧
    (∀ k ∈ before, k.format.isRejected = false) ∧ m.format.resolve = .error e

theorem FirstRejection.cons {m : MarkedParameter} {ms : List MarkedParameter}
    {e : Literal.FormatError} (settles : m.format.isRejected = false)
    (later : FirstRejection ms e) : FirstRejection (m :: ms) e := by
  obtain ⟨before, bad, after, rfl, accepted, rejected⟩ := later
  refine ⟨m :: before, bad, after, rfl, ?_, rejected⟩
  intro k mem
  rcases List.mem_cons.1 mem with rfl | mem
  · exact settles
  · exact accepted k mem

namespace CallSiteRecord

/-- Tells whether a record asks for a format that is rejected. -/
def isRejected (r : CallSiteRecord) : Bool :=
  r.markedParameters.any (·.format.isRejected)

/-- The records that do not fail. -/
def accepted (rs : List CallSiteRecord) : List CallSiteRecord :=
  rs.filter fun r => !r.isRejected

theorem accepted_cons_rejected {r : CallSiteRecord} (rejected : r.isRejected = true)
    (rs : List CallSiteRecord) : accepted (r :: rs) = accepted rs :=
  List.filter_cons_of_neg (by rw [rejected]; decide)

theorem accepted_cons_accepted {r : CallSiteRecord} (settles : r.isRejected = false)
    (rs : List CallSiteRecord) : accepted (r :: rs) = r :: accepted rs :=
  List.filter_cons_of_pos (by rw [settles]; decide)

theorem isRejected_of_mem_accepted {r : CallSiteRecord} {rs : List CallSiteRecord}
    (mem : r ∈ accepted rs) : r.isRejected = false := by
  simpa using (List.mem_filter.1 mem).2

/-- Literals are computed up to the first rejection, and all of them when there is none. -/
theorem literalsOf_cases (r : CallSiteRecord) (ms : List MarkedParameter) :
    (ms.any (·.format.isRejected) = true ∧
        ∃ e, r.literalsOf ms = .error e ∧ FirstRejection ms e) ∨
      (ms.any (·.format.isRejected) = false ∧
        ∃ assignments, r.literalsOf ms = .ok assignments) := by
  induction ms with
  | nil => exact Or.inr ⟨rfl, [], rfl⟩
  | cons m rest ih =>
    rw [literalsOf, List.any_cons]
    cases resolved : m.format.resolve with
    | error e =>
      have rejects : m.format.isRejected = true := by
        rw [Literal.FormatRequest.isRejected, resolved]
      exact Or.inl ⟨by rw [rejects, Bool.true_or], e, rfl, [], m, rest, rfl, by simp, resolved⟩
    | ok f =>
      have settles : m.format.isRejected = false := by
        rw [Literal.FormatRequest.isRejected, resolved]
      rw [settles, Bool.false_or]
      rcases ih with ⟨later, e, fails, first⟩ | ⟨clean, assignments, gives⟩
      · simp only [fails]
        exact Or.inl ⟨later, e, rfl, first.cons settles⟩
      · simp only [gives]
        exact Or.inr ⟨clean, _, rfl⟩

end CallSiteRecord

/-! ## One record -/

section

variable {r : CallSiteRecord}

theorem ofRecord_of_rejected (rejected : r.isRejected = true) (n : Nat) :
    ∃ e, FirstRejection r.markedParameters e ∧
      Emitted.ofRecord n r = .skipped r.locationKey r.target e := by
  rcases r.literalsOf_cases r.markedParameters with ⟨-, e, fails, first⟩ | ⟨clean, -⟩
  · refine ⟨e, first, ?_⟩
    rw [Emitted.ofRecord, CallSiteRecord.literals, fails]
  · rw [CallSiteRecord.isRejected, clean] at rejected
    cases rejected

theorem ofRecord_of_accepted (accepted : r.isRejected = false) (n : Nat) :
    ∃ made i, IsEmittedAs r n made i ∧ Emitted.ofRecord n r = .routine made i := by
  rcases r.literalsOf_cases r.markedParameters with ⟨found, -⟩ | ⟨-, assignments, gives⟩
  · rw [CallSiteRecord.isRejected, found] at accepted
    cases accepted
  · have made : Emitted.ofRecord n r = .routine (r.routine n assignments)
        (r.intercept (r.routine n assignments).name assignments) := by
      rw [Emitted.ofRecord, CallSiteRecord.literals, gives]
    exact ⟨_, _, isEmittedAs_of_ofRecord made, made⟩

end

/-- What is known of the failure that reports a record. -/
structure IsReportedBy (r : CallSiteRecord) (f : RecordFailure) : Prop where
  locationKey : f.locationKey = some r.locationKey
  target : f.target = some r.target
  line : f.line = none
  reason : ∃ e, FirstRejection r.markedParameters e ∧ f.reason = e.message

/-! ## All records -/

namespace Emission

/-- A record that fails leaves the number of the next routine as it was. -/
theorem emitFrom_cons_of_skipped {n : Nat} {r : CallSiteRecord} {key target : String}
    {e : Literal.FormatError} (given : Emitted.ofRecord n r = .skipped key target e)
    (rs : List CallSiteRecord) :
    emitFrom n (r :: rs) = .skipped key target e :: emitFrom n rs := by
  rw [emitFrom, given]

theorem emitFrom_cons_of_routine {n : Nat} {r : CallSiteRecord} {made : Routine}
    {i : InterceptRecord} (given : Emitted.ofRecord n r = .routine made i)
    (rs : List CallSiteRecord) :
    emitFrom n (r :: rs) = .routine made i :: emitFrom (n + 1) rs := by
  rw [emitFrom, given]

/-- The failures report the rejected records, in order. -/
theorem forall₂_failures_emitFrom (n : Nat) (rs : List CallSiteRecord) :
    List.Forall₂ IsReportedBy (rs.filter (·.isRejected))
      ((emitFrom n rs).filterMap Emitted.failure?) := by
  induction rs generalizing n with
  | nil => exact .nil
  | cons r rs ih =>
    cases rejected : r.isRejected with
    | true =>
      obtain ⟨e, first, given⟩ := ofRecord_of_rejected rejected n
      rw [emitFrom_cons_of_skipped given, List.filter_cons_of_pos rejected]
      exact .cons ⟨rfl, rfl, rfl, e, first, rfl⟩ (ih n)
    | false =>
      obtain ⟨made, i, -, given⟩ := ofRecord_of_accepted rejected n
      rw [emitFrom_cons_of_routine given, List.filter_cons_of_neg (by rw [rejected]; decide)]
      exact ih (n + 1)

/-- A view that does not show skipped records shows the same without them. -/
theorem filterMap_emitFrom_accepted {α : Type} (view : Emitted → Option α)
    (blind : ∀ key target e, view (.skipped key target e) = none) (n : Nat)
    (rs : List CallSiteRecord) :
    (emitFrom n (CallSiteRecord.accepted rs)).filterMap view =
      (emitFrom n rs).filterMap view := by
  induction rs generalizing n with
  | nil => rfl
  | cons r rs ih =>
    cases rejected : r.isRejected with
    | true =>
      obtain ⟨e, -, given⟩ := ofRecord_of_rejected rejected n
      rw [CallSiteRecord.accepted_cons_rejected rejected, emitFrom_cons_of_skipped given,
        List.filterMap_cons_none (blind _ _ e)]
      exact ih n
    | false =>
      obtain ⟨made, i, -, given⟩ := ofRecord_of_accepted rejected n
      rw [CallSiteRecord.accepted_cons_accepted rejected, emitFrom_cons_of_routine given,
        emitFrom_cons_of_routine given, List.filterMap_cons, List.filterMap_cons, ih (n + 1)]

/-- Routines and manifest records that come from records one by one, under the numbers from a
first one on. -/
inductive AreEmittedFrom : Nat → List CallSiteRecord → List Routine → List InterceptRecord → Prop
  | nil {n : Nat} : AreEmittedFrom n [] [] []
  | cons {n : Nat} {r : CallSiteRecord} {rs : List CallSiteRecord} {made : Routine}
      {routines : List Routine} {i : InterceptRecord} {intercepts : List InterceptRecord} :
      IsEmittedAs r n made i → AreEmittedFrom (n + 1) rs routines intercepts →
        AreEmittedFrom n (r :: rs) (made :: routines) (i :: intercepts)

theorem areEmittedFrom_accepted (n : Nat) (rs : List CallSiteRecord) :
    AreEmittedFrom n (CallSiteRecord.accepted rs)
      ((emitFrom n rs).filterMap Emitted.routine?)
      ((emitFrom n rs).filterMap Emitted.intercept?) := by
  induction rs generalizing n with
  | nil => exact .nil
  | cons r rs ih =>
    cases rejected : r.isRejected with
    | true =>
      obtain ⟨e, -, given⟩ := ofRecord_of_rejected rejected n
      rw [CallSiteRecord.accepted_cons_rejected rejected, emitFrom_cons_of_skipped given]
      exact ih n
    | false =>
      obtain ⟨made, i, emitted, given⟩ := ofRecord_of_accepted rejected n
      rw [CallSiteRecord.accepted_cons_accepted rejected, emitFrom_cons_of_routine given]
      exact .cons emitted (ih (n + 1))

namespace AreEmittedFrom

variable {n : Nat} {rs : List CallSiteRecord} {routines : List Routine}
  {intercepts : List InterceptRecord}

theorem length_eq (h : AreEmittedFrom n rs routines intercepts) :
    routines.length = rs.length ∧ intercepts.length = rs.length := by
  induction h with
  | nil => exact ⟨rfl, rfl⟩
  | cons _ _ ih => exact ⟨congrArg (· + 1) ih.1, congrArg (· + 1) ih.2⟩

/-- The number of a routine is its place. -/
theorem exists_getElem? (h : AreEmittedFrom n rs routines intercepts) {k : Nat}
    {r : CallSiteRecord} (found : rs[k]? = some r) :
    ∃ made i, routines[k]? = some made ∧ intercepts[k]? = some i ∧
      IsEmittedAs r (n + k) made i := by
  induction h generalizing k with
  | nil => cases found
  | cons emitted later ih =>
    cases k with
    | zero =>
      injection found with found
      subst found
      exact ⟨_, _, rfl, rfl, emitted⟩
    | succ k =>
      obtain ⟨made, i, routine, intercept, emitted⟩ := ih found
      refine ⟨made, i, routine, intercept, ?_⟩
      rwa [Nat.add_right_comm] at emitted

end AreEmittedFrom

end Emission

/-! ## What a routine and its manifest record carry -/

/-- The literal that counts at a position: that of the last assignment for it. -/
def IsLastAt (assignments : List LiteralAssignment) (k : Nat) : Option String → Prop
  | none => ∀ a ∈ assignments, a.ordinal ≠ (k : Int)
  | some text => ∃ before a after, assignments = before ++ a :: after ∧
      a.ordinal = (k : Int) ∧ a.literal = text ∧ ∀ b ∈ after, b.ordinal ≠ (k : Int)

theorem isLastAt_literalAt? (assignments : List LiteralAssignment) (k : Nat) :
    IsLastAt assignments k (literalAt? assignments k) := by
  cases found : literalAt? assignments k with
  | none => exact literalAt?_eq_none_iff.1 found
  | some text =>
    obtain ⟨a, first, literal⟩ := Option.map_eq_some_iff.1 found
    obtain ⟨same, after, before, reversed, others⟩ := List.find?_eq_some_iff_append.1 first
    refine ⟨before.reverse, a, after.reverse, ?_, by simpa using same, literal, ?_⟩
    · rw [← List.reverse_reverse assignments, reversed]
      simp
    · intro b mem
      simpa using others b (List.mem_reverse.1 mem)

/-- An answer to a marked parameter that is one of the parameters of the record. -/
structure AnswersWithin (r : CallSiteRecord) (m : MarkedParameter) (a : LiteralAssignment) :
    Prop where
  answers : r.Answers m a
  parameter : ∃ p, r.parameters[m.ordinal]? = some p ∧ a.parameter = p.name

/-- A routine with a number and a manifest record that stand for a record: the routine carries
the number, the tag and the literals of the record, and the manifest record names the routine. -/
structure StandsFor (r : CallSiteRecord) (n : Nat) (made : Routine) (i : InterceptRecord) :
    Prop where
  emitted : IsEmittedAs r n made i
  name : made.name =
    String.ofList (toIdentifier r.methodName.toList) ++ "_" ++ Decimal.integerString n
  tag : made.tag = tagText r.location r.interceptsData
  callee : made.callee = calleeText r.targetType r.methodName r.isStatic
  answers : List.Forall₂ (AnswersWithin r) r.markedParameters i.literals
  forwarded : made.arguments.length = r.parameters.length
  argument : ∀ k p, r.parameters[k]? = some p →
    ∃ literal, made.arguments[k]? = some ⟨p.name, literal⟩ ∧ IsLastAt i.literals k literal
  routineName : i.routineName = made.name
  target : i.target = r.target
  locationKey : i.locationKey = r.locationKey
  interceptsData : i.interceptsData = r.interceptsData

theorem standsFor_of_isEmittedAs {r : CallSiteRecord} {n : Nat} {made : Routine}
    {i : InterceptRecord} (inRange : ∀ m ∈ r.markedParameters, m.ordinal < r.parameters.length)
    (emitted : IsEmittedAs r n made i) : StandsFor r n made i where
  emitted := emitted
  name := by rw [emitted.routine]; rfl
  tag := by rw [emitted.routine]; rfl
  callee := by rw [emitted.routine]; rfl
  answers := by
    have answered := CallSiteRecord.forall₂_answers_of_literalsOf emitted.literals
    refine ((List.forall₂_and_left _ _).2 ⟨inRange, answered⟩).imp ?_
    rintro m a ⟨inside, answers⟩
    refine ⟨answers, r.parameters[m.ordinal], List.getElem?_eq_getElem inside, ?_⟩
    rw [answers.parameter, List.getElem?_eq_getElem inside]
    rfl
  forwarded := by
    rw [emitted.routine]
    simp [CallSiteRecord.routine]
  argument := by
    intro k p found
    refine ⟨literalAt? i.literals k, ?_, isLastAt_literalAt? _ _⟩
    rw [emitted.routine, CallSiteRecord.getElem?_arguments_routine, found]
    rfl
  routineName := emitted.routineName
  target := by rw [emitted.intercept]; rfl
  locationKey := emitted.locationKey
  interceptsData := by rw [emitted.intercept]; rfl

/-! ## Isolation -/

/-- What is known of the emission of records of which some fail: the failures report the records
that fail, and the routine with a number and the manifest record at its place stand for the
record at this place among the others. -/
structure IsIsolated (rs : List CallSiteRecord) (e : Emission) : Prop where
  failures : List.Forall₂ IsReportedBy (rs.filter (·.isRejected)) e.failures
  routines : e.routines.length = (CallSiteRecord.accepted rs).length
  intercepts : e.intercepts.length = (CallSiteRecord.accepted rs).length
  numbered : ∀ n r, (CallSiteRecord.accepted rs)[n]? = some r →
    ∃ made i, e.routines[n]? = some made ∧ e.intercepts[n]? = some i ∧ StandsFor r n made i

namespace Emission

/-- No failure is reported when no record fails. -/
theorem failures_ofRecords_accepted (options : UnitOptions) (rs : List CallSiteRecord) :
    (ofRecords options (CallSiteRecord.accepted rs)).failures = [] := by
  have reported := forall₂_failures_emitFrom 0 (CallSiteRecord.accepted rs)
  have clean : (CallSiteRecord.accepted rs).filter (·.isRejected) = [] := by
    apply List.filter_eq_nil_iff.2
    intro r mem
    rw [CallSiteRecord.isRejected_of_mem_accepted mem]
    decide
  rw [clean] at reported
  exact List.forall₂_nil_left_iff.1 reported

/-- Records with a format that is rejected are reported in order, and the source and the manifest
are those of the other records alone, each of which gives one routine and one manifest record. -/
theorem isIsolated_ofRecords (options : UnitOptions) {rs : List CallSiteRecord}
    (inRange : ∀ r ∈ rs, ∀ m ∈ r.markedParameters, m.ordinal < r.parameters.length) :
    IsIsolated rs (ofRecords options rs) ∧
      (ofRecords options rs).source =
        (ofRecords options (CallSiteRecord.accepted rs)).source ∧
      (ofRecords options rs).intercepts =
        (ofRecords options (CallSiteRecord.accepted rs)).intercepts ∧
      (ofRecords options (CallSiteRecord.accepted rs)).failures = [] := by
  have emitted := areEmittedFrom_accepted 0 rs
  refine ⟨⟨forall₂_failures_emitFrom 0 rs, emitted.length_eq.1, emitted.length_eq.2, ?_⟩,
    ?_, ?_, failures_ofRecords_accepted options rs⟩
  · intro n r found
    obtain ⟨made, i, routine, intercept, emitted⟩ := emitted.exists_getElem? found
    have mem : r ∈ rs := (List.mem_filter.1 (List.mem_of_getElem? found)).1
    rw [Nat.zero_add] at emitted
    exact ⟨made, i, routine, intercept, standsFor_of_isEmittedAs (inRange r mem) emitted⟩
  · have routines := filterMap_emitFrom_accepted Emitted.routine? (fun _ _ _ => rfl) 0 rs
    exact congrArg (fun made => unitText options (made.map Routine.lines)) routines.symm
  · exact (filterMap_emitFrom_accepted Emitted.intercept? (fun _ _ _ => rfl) 0 rs).symm

end Emission

/-- A static call of a method with one marked parameter for each of the given formats. -/
def recordOfFormats (methodName : String) (line : Nat)
    (formats : List Literal.FormatRequest) : CallSiteRecord where
  targetType := "N.A"
  methodName := methodName
  returnType := "void"
  isStatic := true
  location := ⟨"a.cs", line, 2⟩
  locationKey := SourceLocation.key ⟨"a.cs", line, 2⟩
  interceptsData := none
  parameters := formats.map fun _ => ⟨"id", "string", false, none⟩
  markedParameters := formats.zipIdx.map fun (format, k) => ⟨k, format, none, true⟩

/-- A record whose second format is rejected leaves no trace between two others. -/
theorem Emission.isolated_second_format :
    let first := recordOfFormats "F" 1 [.settled .guid]
    let bad := recordOfFormats "G" 2 [.settled .guid, .written (.int 7)]
    let last := recordOfFormats "H" 3 [.written (.string "HtmlId")]
    let all := ofRecords ⟨"N", "A", true⟩ [first, bad, last]
    let others := ofRecords ⟨"N", "A", true⟩ [first, last]
    all.source = others.source ∧ all.intercepts = others.intercepts ∧
      List.Forall₂ IsReportedBy [bad] all.failures ∧
      ∃ made i, all.routines[1]? = some made ∧ all.intercepts[1]? = some i ∧
        StandsFor last 1 made i := by
  intro first bad last all others
  have accepted : CallSiteRecord.accepted [first, bad, last] = [first, last] := by rfl
  have rejected : [first, bad, last].filter (·.isRejected) = [bad] := by rfl
  have inRange : ∀ r ∈ [first, bad, last], ∀ m ∈ r.markedParameters,
      m.ordinal < r.parameters.length := by decide
  obtain ⟨isolated, source, intercepts, -⟩ := Emission.isIsolated_ofRecords ⟨"N", "A", true⟩ inRange
  rw [accepted] at source intercepts
  have failures := isolated.failures
  rw [rejected] at failures
  exact ⟨source, intercepts, failures, isolated.numbered 1 last (by rw [accepted]; rfl)⟩

end CallSiteIds
