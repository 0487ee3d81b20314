import CallSiteIds.CommandLine.Execution
import CallSiteIds.Proofs.Pass.Calls
import CallSiteIds.Proofs.Record.Validity

/-!
# The literals of a pass

An entry of the manifest can be derived again from the manifest alone: the key of its record is
read back as the place of the call, and the command that prints one literal gives the literal of
the entry.  The routine of the record falls back on the same literals, at the positions of the
marked parameters and nowhere else (`literals_ofBatch`).  So a literal depends on the place of
its call, the position of its parameter and its marker, and on no other descriptor.
-/

set_option autoImplicit false

namespace CallSiteIds

open Source

/-! ## The arguments of a routine -/

namespace Source.Routine

/-- The arguments of the call that a routine makes when a marked argument is absent, as they are
written. -/
def fallbackTexts (made : Routine) : List String :=
  (made.arguments.map Forwarded.synthesized).map Argument.text

/-- The last statement of a routine calls the intercepted method with these arguments. -/
theorem text_after (made : Routine) :
    made.body.after.map Statement.text =
      [(if made.isVoid then "" else "return ") ++
        (made.callee ++ "(" ++ ", ".intercalate made.fallbackTexts ++ ");")] := by
  unfold body forward
  split
  · simp only [List.map_cons, List.map_nil, Statement.text, String.empty_append]
    rfl
  · rfl

end Source.Routine

/-! ## One record -/

/-- What a manifest record and its routine say of the literals of the call that a descriptor
describes. -/
structure CarriesLiterals (names : List String) (d : InvocationDescriptor) (made : Routine)
    (i : InterceptRecord) : Prop where
  /-- The key is read back as the place of the call, and the literals are derived from it. -/
  derived : ∃ l : SourceLocation, d.sourceLocation? = some l ∧
    Location.Position.ofKey i.locationKey = .ok ⟨l.path, l.line, l.column⟩ ∧
    ∀ a ∈ i.literals,
      CommandLine.literalOf l.path l.line l.column a.ordinal a.format a.lead = .ok a.literal
  /-- An entry keeps what the marker of a parameter asks for, and its literal is substituted. -/
  substituted : ∀ a ∈ i.literals, ∃ (k : Nat) (p : ParameterDescriptor) (config : Marker.Config),
    a.ordinal = k ∧ d.parameters[k]? = some p ∧ Marker.asked? names p = some config ∧
      a.parameter = p.name ∧ a.format = config.format.displayName ∧ a.lead = config.lead ∧
      made.fallbackTexts[k]? =
        some (escapeName p.name ++ " ?? " ++ String.ofList (regularLiteral a.literal.toList))
  /-- No marked parameter is left out. -/
  complete : ∀ (k : Nat) p, d.parameters[k]? = some p →
    (Marker.find? names p).isSome = true → ∃ a ∈ i.literals, a.ordinal = k
  /-- A parameter without a marker is passed on as it is. -/
  others : ∀ (k : Nat) p, d.parameters[k]? = some p → Marker.find? names p = none →
    made.fallbackTexts[k]? = some (escapeName p.name)
  count : made.fallbackTexts.length = d.parameters.length
  /-- These are the arguments of the last statement of the routine. -/
  written : made.body.after.map Statement.text =
    [(if made.isVoid then "" else "return ") ++
      (made.callee ++ "(" ++ ", ".intercalate made.fallbackTexts ++ ");")]
  /-- When all marked arguments are present, the parameters are passed on as they are. -/
  present : made.body.guarded.head? =
    some (made.forward (d.parameters.map fun p => .passed p.name))

/-- The command that prints a literal gives that of an entry. -/
theorem literalOf_of_answers {r : CallSiteRecord} {m : MarkedParameter} {a : LiteralAssignment}
    (key : r.locationKey = r.location.key) (answers : r.Answers m a) :
    CommandLine.literalOf r.location.path r.location.line r.location.column a.ordinal a.format
      a.lead = .ok a.literal := by
  obtain ⟨f, -, format, literal⟩ := answers.literal
  rw [CommandLine.literalOf, r.location.key_eq, format]
  simp only [Literal.Format.ofString_displayName]
  rw [literal, answers.ordinal, answers.lead, key]

namespace IsEmittedAs

variable {names : List String} {d : InvocationDescriptor} {r : CallSiteRecord} {n : Nat}
  {made : Routine} {i : InterceptRecord}

theorem nodup_ordinals (emitted : IsEmittedAs r n made i) (builds : d.Builds names r) :
    (i.literals.map (·.ordinal)).Nodup := by
  exact (CallSiteRecord.isValid_of_builds builds).nodup_ordinals emitted.literals

/-- A routine forwards the parameters of the descriptor with the literals of the record. -/
theorem getElem?_arguments (emitted : IsEmittedAs r n made i) (builds : d.Builds names r)
    (k : Nat) :
    made.arguments[k]? =
      (d.parameters[k]?).map fun p => ⟨p.name, literalAt? i.literals k⟩ := by
  rw [emitted.routine, CallSiteRecord.getElem?_arguments_routine, builds.parameters,
    List.getElem?_map, Option.map_map]
  rfl

theorem getElem?_fallbackTexts (emitted : IsEmittedAs r n made i) (builds : d.Builds names r)
    (k : Nat) :
    made.fallbackTexts[k]? =
      (d.parameters[k]?).map fun p =>
        (Forwarded.synthesized ⟨p.name, literalAt? i.literals k⟩).text := by
  rw [Routine.fallbackTexts, List.map_map, List.getElem?_map, emitted.getElem?_arguments builds,
    Option.map_map]
  rfl

theorem map_plain_arguments (emitted : IsEmittedAs r n made i) (builds : d.Builds names r) :
    made.arguments.map Forwarded.plain =
      d.parameters.map fun p => Argument.passed p.name := by
  apply List.ext_getElem?
  intro k
  rw [List.getElem?_map, List.getElem?_map, emitted.getElem?_arguments builds, Option.map_map]
  rfl

/-- A position without a marker has no literal. -/
theorem literalAt?_of_plain (emitted : IsEmittedAs r n made i) (builds : d.Builds names r)
    {k : Nat} {p : ParameterDescriptor} (at' : d.parameters[k]? = some p)
    (plain : Marker.find? names p = none) : literalAt? i.literals k = none := by
  rw [literalAt?_eq_none_iff]
  intro a mem ordinal
  obtain ⟨m, marked, answers⟩ :=
    (CallSiteRecord.answers_of_literalsOf emitted.literals).1 a mem
  obtain ⟨j, q, config, position, at'', asked, -⟩ := builds.marked.asked m marked
  have same : j = k := by
    have := answers.ordinal
    omega
  rw [same, at'] at at''
  injection at'' with e
  subst e
  have found := Marker.isSome_find?_of_asked? asked
  rw [plain] at found
  cases found

/-- A position with a marker has an entry. -/
theorem exists_entry (emitted : IsEmittedAs r n made i) (builds : d.Builds names r) {k : Nat}
    {p : ParameterDescriptor} (at' : d.parameters[k]? = some p)
    (found : (Marker.find? names p).isSome = true) : ∃ a ∈ i.literals, a.ordinal = k := by
  obtain ⟨m, marked, ordinal⟩ := builds.marked.complete k p at' found
  have inside : (m.ordinal : Int) ∈ i.literals.map (·.ordinal) := by
    rw [(CallSiteRecord.answers_of_literalsOf emitted.literals).2]
    exact List.mem_map_of_mem (f := fun m : MarkedParameter => (m.ordinal : Int)) marked
  obtain ⟨a, mem, same⟩ := List.mem_map.1 inside
  exact ⟨a, mem, by omega⟩

/-- A routine that was emitted for a described call carries its literals. -/
theorem carriesLiterals {size : Nat} (emitted : IsEmittedAs r n made i)
    (builds : d.Builds names r) (measured : d.IsMeasured size) :
    CarriesLiterals names d made i := by
  have answered := (CallSiteRecord.answers_of_literalsOf emitted.literals).1
  have texts := emitted.getElem?_fallbackTexts builds
  refine ⟨⟨r.location, builds.location, ?_, ?_⟩, ?_, ?_, ?_, ?_, made.text_after, ?_⟩
  · obtain ⟨line, column⟩ := measured.position r.location builds.location
    rw [emitted.locationKey, builds.key]
    exact Location.ofKey_key r.location.key_eq line column
  · intro a mem
    obtain ⟨m, -, answers⟩ := answered a mem
    exact literalOf_of_answers builds.key answers
  · intro a mem
    obtain ⟨m, marked, answers⟩ := answered a mem
    obtain ⟨k, p, config, ordinal, at', asked, format, lead⟩ := builds.marked.asked m marked
    rw [Nat.zero_add] at ordinal
    obtain ⟨f, resolved, display, -⟩ := answers.literal
    rw [format] at resolved
    injection resolved with resolved
    have position : a.ordinal = k := by rw [answers.ordinal, ordinal]
    have substituted : literalAt? i.literals k = some a.literal :=
      (literalAt?_eq_some_iff (emitted.nodup_ordinals builds)).2 ⟨a, mem, position, rfl⟩
    have name : a.parameter = p.name := by
      rw [answers.parameter, builds.parameters, ordinal, List.getElem?_map, at']
      rfl
    refine ⟨k, p, config, position, at', asked, name, ?_, ?_, ?_⟩
    · rw [display, resolved]
    · rw [answers.lead, lead]
    · rw [texts, at', substituted]
      rfl
  · intro k p at' found
    exact emitted.exists_entry builds at' found
  · intro k p at' plain
    rw [texts, at', emitted.literalAt?_of_plain builds at' plain]
    rfl
  · rw [Routine.fallbackTexts, List.length_map, List.length_map, emitted.routine,
      CallSiteRecord.routine, List.length_map, List.length_zipIdx, builds.parameters,
      List.length_map]
  · rw [← emitted.map_plain_arguments builds]
    rfl

end IsEmittedAs

/-- Entries of two passes that agree in the key of their call, in their position and in what was
asked for have the same literal. -/
theorem CarriesLiterals.literal_eq {names names' : List String} {d d' : InvocationDescriptor}
    {made made' : Routine} {i i' : InterceptRecord} (h : CarriesLiterals names d made i)
    (h' : CarriesLiterals names' d' made' i') (key : i.locationKey = i'.locationKey)
    {a a' : LiteralAssignment} (mem : a ∈ i.literals) (mem' : a' ∈ i'.literals)
    (ordinal : a.ordinal = a'.ordinal) (format : a.format = a'.format) (lead : a.lead = a'.lead) :
    a.literal = a'.literal := by
  obtain ⟨l, -, read, derived⟩ := h.derived
  obtain ⟨l', -, read', derived'⟩ := h'.derived
  rw [key, read'] at read
  injection read with same
  injection same with path line column
  have printed := derived a mem
  rw [← path, ← line, ← column, ordinal, format, lead, derived' a' mem'] at printed
  injection printed with literal
  exact literal.symm

/-! ## The whole pass -/

/-- Each record of a pass carries its literals, and so does the routine with its name. -/
theorem carriesLiterals_of_mem {config : Config} {bytes : List UInt8} {made : Routine}
    {i : InterceptRecord} (emitted : made ∈ (passEmission config bytes).routines)
    (listed : i ∈ (passEmission config bytes).intercepts) (named : made.name = i.routineName) :
    ∃ d ∈ (DescriptorBatch.ofBytes bytes).descriptors,
      CarriesLiterals config.markerNames d made i := by
  obtain ⟨r, kept, n, routine, known, inside⟩ := Emission.exists_of_mem_intercepts listed
  obtain ⟨d, described, builds⟩ := Collection.exists_builds_of_mem_records kept
  -- No two routines share a name, so this is the routine that came with the record.
  have same : made = routine :=
    Emission.eq_of_name_eq emitted inside (named.trans known.routineName)
  rw [same]
  exact ⟨d, described, known.carriesLiterals builds
    (DescriptorBatch.isMeasured_of_mem_descriptors described)⟩

/-- The manifest and the source of a pass carry the same literals, each of which can be derived
again from its record.  The routines of the source are named by the records one by one, and a
record and its routine carry the literals of one of the descriptors.  Entries of two passes with
the same key, position, format and lead have the same literal, whatever else is described. -/
theorem literals_ofBatch (config : Config) (output descriptors : Place) (bytes : List UInt8) :
    let plan := Plan.ofBatch config output descriptors (.ofBytes bytes)
    (∃ routines : List Routine,
      plan.source = unitText config.unitOptions (routines.map Routine.lines) ∧
      routines.map (·.name) = plan.intercepts.map (·.routineName) ∧
      ∀ made ∈ routines, ∀ i ∈ plan.intercepts, made.name = i.routineName →
        ∃ d ∈ (DescriptorBatch.ofBytes bytes).descriptors,
          CarriesLiterals config.markerNames d made i) ∧
    ∀ (config' : Config) (output' descriptors' : Place) (bytes' : List UInt8),
      ∀ i ∈ plan.intercepts,
      ∀ i' ∈ (Plan.ofBatch config' output' descriptors' (.ofBytes bytes')).intercepts,
        i.locationKey = i'.locationKey → ∀ a ∈ i.literals, ∀ a' ∈ i'.literals,
          a.ordinal = a'.ordinal → a.format = a'.format → a.lead = a'.lead →
            a.literal = a'.literal := by
  intro plan
  have carried (config : Config) (bytes : List UInt8) {i : InterceptRecord}
      (mem : i ∈ (passEmission config bytes).intercepts) :
      ∃ d made, CarriesLiterals config.markerNames d made i := by
    obtain ⟨r, -, n, made, known, inside⟩ := Emission.exists_of_mem_intercepts mem
    obtain ⟨d, -, carries⟩ := carriesLiterals_of_mem inside mem known.routineName.symm
    exact ⟨d, made, carries⟩
  constructor
  · refine ⟨(passEmission config bytes).routines, rfl, Emission.names_routines _ _, ?_⟩
    intro made emitted i listed named
    exact carriesLiterals_of_mem emitted listed named
  · intro config' output' descriptors' bytes' i listed i' listed' key a mem a' mem'
    obtain ⟨d, made, carries⟩ := carried config bytes listed
    obtain ⟨d', made', carries'⟩ := carried config' bytes' listed'
    exact carries.literal_eq carries' key mem mem'

/-- A pass over one call lists one literal, which the command prints and the routine falls back
on. -/
theorem literals_of_one_call :
    let plan := Plan.ofBatch .usual ["out"] ["calls"] (.ofBytes (callFile [("F", 1)]))
    ∃ (routines : List Routine) (made : Routine) (i : InterceptRecord) (a : LiteralAssignment),
      plan.source = unitText Config.usual.unitOptions (routines.map Routine.lines) ∧
      made ∈ routines ∧ i ∈ plan.intercepts ∧ made.name = i.routineName ∧ a ∈ i.literals ∧
      CommandLine.literalOf "a.cs" 1 2 0 "Guid" none = .ok a.literal ∧
      made.fallbackTexts = ["id ?? " ++ String.ofList (regularLiteral a.literal.toList)] := by
  intro plan
  have fits : ∀ c ∈ [("F", 1)], Json.fitsWord ((c.2 : Nat) : Int) = true := by decide
  obtain ⟨⟨routines, source, names, carried⟩, -⟩ :=
    literals_ofBatch .usual ["out"] ["calls"] (callFile [("F", 1)])
  have kept : keptRecords .usual (callFile [("F", 1)]) = [markedRecord "F" 1] := by
    show Collection.recordsFrom _ [] (DescriptorBatch.ofBytes _).descriptors = _
    rw [descriptors_callFile fits, List.map_cons,
      Collection.recordsFrom_cons_new (built?_markedDescriptor "F" 1) (by simp)]
    rfl
  have listed := Plan.map_intercepts_ofBatch .usual ["out"] ["calls"] (callFile [("F", 1)])
  rw [kept, CallSiteRecord.sorted, List.mergeSort_singleton] at listed
  obtain ⟨i, intercepts, -⟩ := List.map_eq_singleton_iff.1 listed
  have mem : i ∈ plan.intercepts := intercepts ▸ List.mem_singleton_self i
  rw [intercepts] at names
  obtain ⟨made, only, named⟩ := List.map_eq_singleton_iff.1 names
  have emitted : made ∈ routines := only ▸ List.mem_singleton_self made
  obtain ⟨d, described, carries⟩ := carried made emitted i mem named
  rw [descriptors_callFile fits] at described
  have d_eq := List.mem_singleton.1 described
  subst d_eq
  obtain ⟨a, inside, ordinal⟩ := carries.complete 0 _ rfl rfl
  obtain ⟨l, located, -, derived⟩ := carries.derived
  have place : l = ⟨"a.cs", 1, 2⟩ := by
    injection located with place
    exact place.symm
  obtain ⟨k, p, config, position, at', asked, -, format, lead, text⟩ :=
    carries.substituted a inside
  have first : k = 0 := by omega
  subst first
  injection at' with parameter
  subst parameter
  injection asked with settings
  subst settings
  have printed := derived a inside
  rw [place, ordinal, format, lead] at printed
  refine ⟨routines, made, i, a, source, emitted, mem, named, inside, printed, ?_⟩
  have count := carries.count
  obtain ⟨t, texts⟩ := List.length_eq_one_iff.1 count
  rw [texts] at text ⊢
  injection text with text
  rw [text]
  rfl

end CallSiteIds
