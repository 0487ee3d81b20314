import CallSiteIds.Proofs.Emission.MarkedOrder
import CallSiteIds.Proofs.Source.BodyMeaning

/-!
# The two states of a routine

The routine of a valid record asks whether its marked parameters are there, and makes one call of
the intercepted method in either case.  The arguments of the call are those of the caller, except
that a marked parameter that is null is replaced by its literal of the manifest.  All this is said
of the text of the routine, which is read back and run (`standsIn_of_isValid`).
-/

set_option autoImplicit false

namespace CallSiteIds

open Source

/-! ## What a record declares -/

namespace CallSiteRecord

variable (r : CallSiteRecord)

/-- Tells whether the parameter at a position is marked. -/
def isMarked (k : Nat) : Bool :=
  r.markedParameters.any fun m => m.ordinal == k

/-- The names of the parameters as they are written. -/
def parameterNames : List String :=
  r.parameters.map fun p => escapeName p.name

/-- The names of the marked parameters as they are written, in the order of declaration. -/
def markedNames : List String :=
  (r.parameters.zipIdx.filter fun (_, k) => r.isMarked k).map fun (p, _) => escapeName p.name

/-- The names that the routine of a record declares; an instance method has a receiver. -/
def declaredNames : List String :=
  (if r.isStatic then [] else [receiverName]) ++ r.parameterNames

/-- The frame of a routine that was called with these values. -/
def frame {α : Type} (receiver : Option α) (values : List (Option α)) : Frame α :=
  (if r.isStatic then [] else [(receiverName, receiver)]) ++ r.parameterNames.zip values

/-- The parameters of a signature declare those of a record. -/
structure Declares (parts : List String) : Prop where
  receiver : r.isStatic = false →
    parts.head? = some ("this " ++ globalType r.targetType ++ " @this")
  parameters : (if r.isStatic then parts else parts.tail) = r.parameters.map fun p =>
    p.type ++ " " ++ escapeName p.name ++
      if p.hasDefault then " = " ++ p.defaultLiteral.getD "null" else ""

/-- The arguments of a call are the values of the caller, with the literals of the manifest for
the marked parameters that are null. -/
structure Substitutes {α : Type} (text : String → α) (assignments : List LiteralAssignment)
    (values arguments : List (Option α)) : Prop where
  count : arguments.length = r.parameters.length
  literal : ∀ a ∈ assignments, ∀ k : Nat, a.ordinal = k → values[k]? = some none →
    arguments[k]? = some (some (text a.literal))
  kept : ∀ k : Nat, r.isMarked k = false ∨ values[k]? ≠ some none → arguments[k]? = values[k]?

/-- The meaning of the body of the routine of a record. -/
structure HasTwoStates (assignments : List LiteralAssignment) (body : Body) : Prop where
  /-- The body asks for the marked parameters, of which there are some. -/
  guard : body.guard = r.markedNames
  guarded : body.guard ≠ []
  /-- Whichever parameters are null, one call is made, and its answer is returned. -/
  runs : ∀ {κ α ρ : Type} [DecidableEq κ] (machine : Machine κ α ρ) (receiver : Option α)
    (values : List (Option α)), (r.declaredNames.map machine.identity).Nodup →
    values.length = r.parameters.length →
    ∃ run arguments, body.run? machine (r.frame receiver values) = some run ∧
      run.calls = [⟨calleeText r.targetType r.methodName r.isStatic, arguments⟩] ∧
      r.Substitutes machine.text assignments values arguments ∧
      run.result = if r.returnType = "void" then none
        else some (machine.respond
          ⟨calleeText r.targetType r.methodName r.isStatic, arguments⟩)

end CallSiteRecord

/-- A routine stands in for the call of a record. -/
structure StandsIn (r : CallSiteRecord) (made : Routine) (i : InterceptRecord) : Prop where
  ordinals : i.literals.map (·.ordinal) = r.markedParameters.map fun m => (m.ordinal : Int)
  signature : ∃ parts, r.Declares parts ∧ made.lines[1]? = some ("public static " ++
    r.returnType ++ " " ++ made.name ++ "(" ++ ", ".intercalate parts ++ ")")
  /-- The lines after the signature are read as a body with two states, also when they are
  placed in a file. -/
  body : ∃ body, readBody made.callee (linesText (made.lines.drop 2)) = some body ∧
    readBody made.callee (linesText ((made.lines.drop 2).map memberLine)) = some body ∧
    r.HasTwoStates i.literals body

/-! ## The signature -/

namespace CallSiteRecord

theorem parameterText_eq (p : ParameterInfo) :
    parameterText p = p.type ++ " " ++ escapeName p.name ++
      if p.hasDefault then " = " ++ p.defaultLiteral.getD "null" else "" := by
  unfold parameterText
  cases p.hasDefault with
  | true => simp [String.append_assoc]
  | false => simp

theorem declares_parameters (r : CallSiteRecord) (n : Nat)
    (assignments : List LiteralAssignment) : r.Declares (r.routine n assignments).parameters := by
  have parameters : r.parameters.map parameterText = _ :=
    List.map_congr_left fun p _ => parameterText_eq p
  unfold routine
  cases isStatic : r.isStatic with
  | true => exact ⟨by simp [isStatic], by simp [isStatic, parameters]⟩
  | false =>
    constructor
    · intro _
      simp [receiverText, receiverName, String.append_assoc]
    · simp [isStatic, parameters]

/-! ## The parameters of a routine -/

variable {r : CallSiteRecord} {assignments : List LiteralAssignment}

theorem writtenNames_routine (n : Nat) (assignments : List LiteralAssignment) :
    (r.routine n assignments).arguments.map Forwarded.writtenName = r.parameterNames := by
  apply List.ext_getElem?
  intro k
  unfold parameterNames
  rw [List.getElem?_map, getElem?_arguments_routine, List.getElem?_map, Option.map_map]
  rfl

theorem isMarked_iff {k : Nat} :
    r.isMarked k = true ↔ ∃ m ∈ r.markedParameters, m.ordinal = k := by
  simp [isMarked]

/-- A position has a literal exactly when it is marked. -/
theorem isSome_literalAt?_literals (h : r.literals = .ok assignments) (k : Nat) :
    (literalAt? assignments k).isSome = r.isMarked k := by
  have listed : (k : Int) ∈ assignments.map (·.ordinal) ↔
      (k : Int) ∈ r.markedParameters.map fun m => (m.ordinal : Int) := by
    rw [ordinals_of_literals h]
  simp only [List.mem_map, Int.natCast_inj] at listed
  rw [Bool.eq_iff_iff, isMarked_iff, ← listed, Option.isSome_iff_ne_none, Ne,
    literalAt?_eq_none_iff]
  simp

theorem guard_routine (h : r.literals = .ok assignments) (n : Nat) :
    (r.routine n assignments).body.written.guard = r.markedNames := by
  have marked : ((r.routine n assignments).arguments.filter (·.literal.isSome)) =
      (r.parameters.zipIdx.filter fun (_, k) => r.isMarked k).map
        fun (p, k) => ⟨p.name, literalAt? assignments k⟩ := by
    unfold routine
    rw [List.filter_map]
    congr 1
    apply List.filter_congr
    rintro ⟨p, k⟩ _
    exact isSome_literalAt?_literals h k
  unfold Body.written Routine.body markedNames
  rw [marked, List.map_map, List.map_map]
  rfl

theorem markedNames_ne_nil (valid : r.IsValid) : r.markedNames ≠ [] := by
  obtain ⟨m, marked⟩ := List.exists_mem_of_ne_nil _ valid.marked
  have inRange := valid.inRange m marked
  have listed : (r.parameters[m.ordinal], m.ordinal) ∈
      r.parameters.zipIdx.filter fun (_, k) => r.isMarked k := by
    refine List.mem_filter.2 ⟨List.mem_zipIdx_iff_getElem?.2 (List.getElem?_eq_getElem inRange), ?_⟩
    exact List.any_eq_true.2 ⟨m, marked, by simp⟩
  intro empty
  rw [List.map_eq_nil_iff.1 empty] at listed
  cases listed

/-! ## The body -/

theorem isReadable_body (named : ∀ p ∈ r.parameters, IsNamed p.name) (n : Nat)
    (assignments : List LiteralAssignment) :
    (r.routine n assignments).body.IsReadable (r.routine n assignments).callee := by
  apply Routine.isReadable_body (isCallee_calleeText _ _ _)
  intro f mem
  obtain ⟨⟨p, k⟩, inside, rfl⟩ := List.mem_map.1 mem
  exact named p (List.fst_mem_of_mem_zipIdx inside)

/-- The parameters of a routine have the values that it was called with. -/
theorem declared_routine {κ α ρ : Type} [DecidableEq κ] {machine : Machine κ α ρ}
    (receiver : Option α) {values : List (Option α)}
    (distinct : (r.declaredNames.map machine.identity).Nodup)
    (count : values.length = r.parameters.length) (n : Nat)
    (assignments : List LiteralAssignment) :
    (r.routine n assignments).arguments.map
        (fun f => machine.value? (r.frame receiver values) f.writtenName) = values.map some := by
  have names := writtenNames_routine (r := r) n assignments
  have count : values.length = r.parameterNames.length := by
    unfold parameterNames
    rw [List.length_map]
    exact count
  have own : r.parameterNames.map (machine.value? (r.frame receiver values)) =
      values.map some := by
    unfold frame
    apply map_value?_append_zip machine count
    have front : (if r.isStatic then [] else [(receiverName, receiver)]).map Prod.fst =
        if r.isStatic then [] else [receiverName] := by
      cases r.isStatic <;> rfl
    rw [front]
    exact distinct
  rw [← own, ← names, List.map_map]
  rfl

theorem substitutes_forwardedArguments (valid : r.IsValid) (h : r.literals = .ok assignments)
    {α : Type} (text : String → α) {values : List (Option α)}
    (count : values.length = r.parameters.length) (n : Nat) :
    r.Substitutes text assignments values
      (forwardedArguments text (r.routine n assignments).arguments values) := by
  have length : (r.routine n assignments).arguments.length = r.parameters.length := by
    simp [routine]
  have at' {k : Nat} {v : Option α} (value : values[k]? = some v) :
      (forwardedArguments text (r.routine n assignments).arguments values)[k]? =
        some (v.or ((literalAt? assignments k).map text)) := by
    have inRange : k < r.parameters.length := by
      rw [← count]
      exact (List.getElem?_eq_some_iff.1 value).1
    unfold forwardedArguments
    rw [List.getElem?_zipWith, getElem?_arguments_routine, value,
      List.getElem?_eq_getElem inRange]
    rfl
  refine ⟨?_, ?_, ?_⟩
  · unfold forwardedArguments
    rw [List.length_zipWith, length, count, Nat.min_self]
  · intro a mem k ordinal absent
    have literal : literalAt? assignments k = some a.literal :=
      (literalAt?_eq_some_iff (valid.nodup_ordinals h)).2 ⟨a, mem, ordinal, rfl⟩
    rw [at' absent, literal]
    rfl
  · intro k plain
    cases value : values[k]? with
    | none =>
      rw [List.getElem?_eq_none_iff] at value ⊢
      unfold forwardedArguments
      rw [List.length_zipWith]
      omega
    | some v =>
      rw [at' value]
      cases v with
      | some w => rfl
      | none =>
        rcases plain with unmarked | present
        · rw [← isSome_literalAt?_literals h, Option.isSome_eq_false_iff,
            Option.isNone_iff_eq_none] at unmarked
          rw [unmarked]
          rfl
        · exact absurd value present

theorem hasTwoStates_body (valid : r.IsValid) (h : r.literals = .ok assignments) (n : Nat) :
    r.HasTwoStates assignments (r.routine n assignments).body.written where
  guard := guard_routine h n
  guarded := by
    rw [guard_routine h]
    exact markedNames_ne_nil valid
  runs := by
    intro κ α ρ _ machine receiver values distinct count
    have declared := declared_routine receiver distinct count n assignments
    obtain ⟨run, ran, calls, result⟩ := run?_written_body declared
    refine ⟨run, _, ran, calls, substitutes_forwardedArguments valid h _ count n, ?_⟩
    rw [result]
    unfold Routine.isVoid
    simp only [beq_iff_eq]
    rfl

/-- The lines of a routine after its signature are read back as its body, also when they are
placed in a file. -/
theorem readBody_routine (valid : r.IsValid) (named : ∀ p ∈ r.parameters, IsNamed p.name)
    (h : r.literals = .ok assignments) (n : Nat) :
    let made := r.routine n assignments
    readBody made.callee (linesText (made.lines.drop 2)) = some made.body.written ∧
      readBody made.callee (linesText ((made.lines.drop 2).map memberLine)) =
        some made.body.written := by
  intro made
  have readable : made.body.IsReadable made.callee := isReadable_body named n assignments
  have guarded : made.body.guard ≠ [] := by
    intro empty
    apply (hasTwoStates_body valid h n).guarded
    unfold Body.written
    rw [empty]
    rfl
  have plain := readBody_lines readable guarded id fun _ _ spelled => spelled
  rw [List.map_id] at plain
  exact ⟨plain, readBody_lines readable guarded memberLine fun _ _ spelled => spelled.memberLine⟩

end CallSiteRecord

/-! ## Standing in for a call -/

open CallSiteRecord

/-- The routine of a valid record whose parameters have names stands in for the call of the
record, and the order in which the record lists its marked parameters changes no text. -/
theorem standsIn_of_isValid {r : CallSiteRecord} (valid : r.IsValid)
    (named : ∀ p ∈ r.parameters, IsNamed p.name) (n : Nat) :
    ∃ made i, Emitted.ofRecord n r = .routine made i ∧ StandsIn r made i ∧
      ∀ marked, r.markedParameters.Perm marked →
        (Emitted.ofRecord n { r with markedParameters := marked }).routine? = some made ∧
        ∀ options before after,
          (Emission.generate options
              (before ++ { r with markedParameters := marked } :: after)).source =
            (Emission.generate options (before ++ r :: after)).source := by
  obtain ⟨made, i, emitted⟩ := valid.exists_emitted n
  have facts := isEmittedAs_of_ofRecord emitted
  refine ⟨made, i, emitted, ⟨ordinals_of_literals facts.literals, ?_, ?_⟩, ?_⟩
  · rw [facts.routine]
    exact ⟨_, declares_parameters r n i.literals, rfl⟩
  · obtain ⟨plain, placed⟩ := readBody_routine valid named facts.literals n
    rw [facts.routine]
    exact ⟨_, plain, placed, hasTwoStates_body valid facts.literals n⟩
  · intro marked perm
    refine ⟨?_, Emission.source_of_reordered valid perm⟩
    rw [routine_of_reordered valid perm, emitted]
    rfl

/-- A call of an instance method whose marked parameters are listed from the last to the first.
One of its parameters has a reserved word for a name. -/
def savedCall : CallSiteRecord where
  targetType := "App.Store"
  methodName := "Save"
  returnType := "string"
  isStatic := false
  location := ⟨"a.cs", 3, 7⟩
  locationKey := "a.cs:3:7"
  interceptsData := none
  parameters :=
    [⟨"key", "string?", true, none⟩, ⟨"value", "string?", false, none⟩,
      ⟨"class", "string?", true, some "\"x\""⟩]
  markedParameters := [⟨2, .settled .htmlId, none, true⟩, ⟨0, .settled .guid, none, true⟩]

theorem isValid_savedCall : savedCall.IsValid := by
  refine ⟨List.cons_ne_nil _ _, ?_, by decide, ?_⟩
  · simp [savedCall]
  · simp [savedCall]

theorem isNamed_savedCall : ∀ p ∈ savedCall.parameters, IsNamed p.name := by
  unfold IsNamed
  decide +kernel

/-- A name without the at sign in front. -/
def bareName (name : String) : List Char :=
  match name.toList with
  | '@' :: cs => cs
  | cs => cs

/-- A call with no key, no value and a class is forwarded with a literal for the key alone. -/
theorem standsIn_savedCall :
    savedCall.IsValid ∧ (∀ p ∈ savedCall.parameters, IsNamed p.name) ∧
      (savedCall.declaredNames.map bareName).Nodup ∧
      ∃ made i body, Emitted.ofRecord 5 savedCall = .routine made i ∧
        readBody made.callee (linesText (made.lines.drop 2)) = some body ∧
        body.guard = ["key", "@class"] ∧
        ∃ run a, body.run? (⟨bareName, id, Performed.arguments⟩ : Machine _ String _)
            (savedCall.frame (some "store") [none, none, some "c"]) = some run ∧
          a ∈ i.literals ∧ a.ordinal = 0 ∧
          run.calls = [⟨"@this.Save", [some a.literal, none, some "c"]⟩] ∧
          run.result = some [some a.literal, none, some "c"] := by
  have distinct : (savedCall.declaredNames.map bareName).Nodup := by decide +kernel
  obtain ⟨made, i, emitted, standsIn, -⟩ := standsIn_of_isValid isValid_savedCall isNamed_savedCall 5
  obtain ⟨body, read, -, states⟩ := standsIn.body
  have guard : savedCall.markedNames = ["key", "@class"] := by decide +kernel
  obtain ⟨run, arguments, ran, calls, substitutes, result⟩ :=
    states.runs (⟨bareName, id, Performed.arguments⟩ : Machine _ String _) (some "store")
      [none, none, some "c"] distinct rfl
  have listed : (0 : Int) ∈ i.literals.map (·.ordinal) := by
    rw [standsIn.ordinals]
    decide
  obtain ⟨a, mem, ordinal⟩ := List.mem_map.1 listed
  have whole : arguments = [some a.literal, none, some "c"] := by
    have first := substitutes.literal a mem 0 ordinal rfl
    have second := substitutes.kept 1 (Or.inl (by decide))
    have third := substitutes.kept 2 (Or.inr (by decide))
    apply List.ext_getElem?
    intro k
    match k with
    | 0 => exact first
    | 1 => exact second
    | 2 => exact third
    | k + 3 =>
      have count : arguments.length = 3 := substitutes.count
      rw [List.getElem?_eq_none (by omega), List.getElem?_eq_none (by simp)]
  rw [whole] at calls result
  exact ⟨isValid_savedCall, isNamed_savedCall, distinct, made, i, body, emitted, read,
    states.guard.trans guard, run, a, ran, mem, ordinal, calls, result⟩

end CallSiteIds
