import CallSiteIds.Proofs.Emission.TwoStates

/-!
# The scope of a routine

The receiver and the parameters of a routine share one scope, in which an at sign in front of a
name does not count.  Reserved words take one, which makes no two parameters the same.  The
receiver is called `@this`, though, and so is a parameter named `this`: the names of a routine are
told apart, and the arguments that it passes on are the parameters of the same positions, exactly
when it has no receiver or no such parameter (`resolves_iff`).
-/

set_option autoImplicit false

namespace CallSiteIds

open Source

/-! ## Names in a scope -/

namespace Source

section Scope

variable {κ : Type} (identity : String → κ)

/-- A name is the same with and without an at sign in front. -/
def IgnoresMark : Prop :=
  ∀ name : String, '@' ∉ name.toList → identity ("@" ++ name) = identity name

/-- A name refers to the declared name at a position, which alone is the same. -/
def RefersTo (declared : List String) (name : String) (k : Nat) : Prop :=
  ∀ l : Nat, declared[l]?.map identity = some (identity name) ↔ l = k

variable {identity}

theorem identity_escapeName (ignores : IgnoresMark identity) (name : String) :
    identity (escapeName name) = identity name := by
  unfold escapeName
  split
  · rename_i reserved
    have unmarked : ∀ word ∈ reservedWords, '@' ∉ word.toList := by decide +kernel
    exact ignores name (unmarked name reserved)
  · rfl

theorem refersTo_of_nodup {declared : List String} (distinct : (declared.map identity).Nodup)
    {name : String} {k : Nat} (found : declared[k]? = some name) :
    RefersTo identity declared name k := by
  intro l
  have here : (declared.map identity)[k]? = some (identity name) := by
    rw [List.getElem?_map, found]
    rfl
  rw [← List.getElem?_map]
  constructor
  · intro there
    obtain ⟨inside, -⟩ := List.getElem?_eq_some_iff.1 there
    exact (List.getElem?_inj inside distinct).1 (there.trans here.symm)
  · rintro rfl
    exact here

end Scope

theorem ignoresMark_bareName : IgnoresMark bareName := by
  intro name unmarked
  have marked : bareName ("@" ++ name) = name.toList := by
    unfold bareName
    rw [String.toList_append]
    rfl
  rw [marked]
  unfold bareName
  split
  · rename_i cs front
    rw [front] at unmarked
    exact absurd List.mem_cons_self unmarked
  · rfl

/-! ## The calls of a body -/

/-- The calls of a body in the order of its lines. -/
def Body.calls (b : Body) : List Call :=
  (b.guarded ++ b.after).filterMap Statement.call?

theorem name_written (a : Argument) : a.written.name = escapeName a.name := by
  cases a <;> rfl

theorem name_synthesized (f : Forwarded) : f.synthesized.name = f.name := by
  unfold Forwarded.synthesized
  cases f.literal <;> rfl

theorem calls_written_body (r : Routine) :
    r.body.written.calls = [(⟨r.callee, r.arguments.map Forwarded.plain⟩ : Call).written,
      (⟨r.callee, r.arguments.map Forwarded.synthesized⟩ : Call).written] := by
  have call (as : List Argument) :
      (r.forward as).written.call? = some (⟨r.callee, as⟩ : Call).written := by
    unfold Routine.forward
    split <;> rfl
  have leave : Statement.leave.written.call? = none := rfl
  unfold Body.calls Body.written Routine.body
  cases r.isVoid with
  | true => simp [call, leave]
  | false => simp [call]

/-- Every call of a routine passes its parameters on, each at its position. -/
theorem names_of_mem_calls {r : Routine} {c : Call} (mem : c ∈ r.body.written.calls) :
    c.callee = r.callee ∧ c.arguments.map Argument.name = r.arguments.map Forwarded.writtenName := by
  rw [calls_written_body, List.mem_cons, List.mem_singleton] at mem
  unfold Call.written at mem
  rcases mem with rfl | rfl
  · refine ⟨rfl, ?_⟩
    rw [List.map_map, List.map_map]
    rfl
  · refine ⟨rfl, ?_⟩
    rw [List.map_map, List.map_map]
    apply List.map_congr_left
    intro f _
    simp only [Function.comp_apply, name_written, name_synthesized, Forwarded.writtenName]

end Source

/-! ## The scope of a routine -/

namespace CallSiteRecord

variable {κ : Type} {identity : String → κ} {r : CallSiteRecord}

/-- The place of a parameter among the declared names; a receiver stands in front. -/
def place (r : CallSiteRecord) (k : Nat) : Nat :=
  if r.isStatic then k else k + 1

/-- The names in the calls of a body refer to what they stand for. -/
structure Resolves (r : CallSiteRecord) (identity : String → κ) (body : Body) : Prop where
  receiver : r.isStatic = false → RefersTo identity r.declaredNames receiverName 0
  arguments : ∀ c ∈ body.calls, ∀ (k : Nat) (a : Argument), c.arguments[k]? = some a →
    RefersTo identity r.declaredNames a.name (r.place k)

/-- No parameter has the name of the receiver, if there is one. -/
def SparesReceiver (r : CallSiteRecord) (identity : String → κ) : Prop :=
  r.isStatic = true ∨ ∀ p ∈ r.parameters, identity p.name ≠ identity "this"

theorem identity_receiverName (ignores : IgnoresMark identity) :
    identity receiverName = identity "this" :=
  ignores "this" (by decide)

theorem map_identity_parameterNames (ignores : IgnoresMark identity) :
    r.parameterNames.map identity = r.parameters.map fun p => identity p.name := by
  unfold parameterNames
  rw [List.map_map]
  exact List.map_congr_left fun p _ => identity_escapeName ignores p.name

theorem getElem?_declaredNames_place (k : Nat) :
    r.declaredNames[r.place k]? = r.parameterNames[k]? := by
  unfold declaredNames place
  cases r.isStatic <;> rfl

/-- The at signs that are put in front of names make no two of them the same; only the receiver
can share its name. -/
theorem nodup_declaredNames_iff (ignores : IgnoresMark identity)
    (distinct : (r.parameters.map fun p => identity p.name).Nodup) :
    (r.declaredNames.map identity).Nodup ↔ r.SparesReceiver identity := by
  rw [← map_identity_parameterNames ignores] at distinct
  unfold declaredNames SparesReceiver
  cases r.isStatic with
  | true => exact iff_of_true distinct (Or.inl rfl)
  | false =>
    have first : (([receiverName] ++ r.parameterNames).map identity).Nodup ↔
        identity "this" ∉ r.parameterNames.map identity := by
      rw [List.singleton_append, List.map_cons, List.nodup_cons, identity_receiverName ignores]
      exact and_iff_left distinct
    rw [map_identity_parameterNames ignores] at first
    simpa using first

theorem resolves_of_nodup {n : Nat} {assignments : List LiteralAssignment}
    (distinct : (r.declaredNames.map identity).Nodup) :
    r.Resolves identity (r.routine n assignments).body.written := by
  constructor
  · intro isInstance
    apply refersTo_of_nodup distinct
    unfold declaredNames
    rw [isInstance]
    rfl
  · intro c mem k a found
    apply refersTo_of_nodup distinct
    have names := (names_of_mem_calls mem).2
    rw [writtenNames_routine] at names
    rw [getElem?_declaredNames_place, ← names, List.getElem?_map, found]
    rfl

/-- A parameter with the name of the receiver takes the receiver from its name. -/
theorem sparesReceiver_of_resolves (ignores : IgnoresMark identity) {body : Body}
    (resolves : r.Resolves identity body) : r.SparesReceiver identity := by
  cases isStatic : r.isStatic with
  | true => exact Or.inl isStatic
  | false =>
    refine Or.inr fun p mem same => ?_
    obtain ⟨k, found⟩ := List.getElem?_of_mem mem
    have declared : r.declaredNames[k + 1]?.map identity = some (identity receiverName) := by
      have place : r.place k = k + 1 := by
        unfold place
        rw [isStatic]
        rfl
      rw [← place, getElem?_declaredNames_place, ← List.getElem?_map,
        map_identity_parameterNames ignores, List.getElem?_map, found, Option.map_some, same,
        identity_receiverName ignores]
    exact Nat.succ_ne_zero k ((resolves.receiver isStatic (k + 1)).1 declared)

/-- The names that a routine declares are identifiers. -/
theorem isName_of_mem_declaredNames (named : ∀ p ∈ r.parameters, IsNamed p.name) {name : String}
    (mem : name ∈ r.declaredNames) : isName name.toList = true ∧ name ∉ reservedWords := by
  rcases List.mem_append.1 mem with mem | mem
  · have same : name = receiverName := by
      split at mem
      · cases mem
      · exact List.mem_singleton.1 mem
    subst same
    decide +kernel
  · obtain ⟨p, inside, rfl⟩ := List.mem_map.1 mem
    exact ⟨named p inside, escapeName_not_mem_reservedWords p.name⟩

/-- The signature of the routine of a valid record declares the receiver and the parameters by
identifiers, and its body calls the intercepted method twice with an argument for each parameter.
When the parameters of the record are told apart, with at signs or without, so are the declared
names, and the receiver and the arguments refer to the declared names of the same positions,
unless the method has a receiver and a parameter is named like it. -/
theorem resolves_iff (valid : r.IsValid) (named : ∀ p ∈ r.parameters, IsNamed p.name)
    (ignores : IgnoresMark identity)
    (distinct : (r.parameters.map fun p => identity p.name).Nodup) (n : Nat) :
    ∃ made i, Emitted.ofRecord n r = .routine made i ∧
      (∃ parts, r.Declares parts ∧ made.lines[1]? = some ("public static " ++ r.returnType ++
        " " ++ made.name ++ "(" ++ ", ".intercalate parts ++ ")")) ∧
      (∀ name ∈ r.declaredNames, isName name.toList = true ∧ name ∉ reservedWords) ∧
      ∃ body, readBody made.callee (linesText (made.lines.drop 2)) = some body ∧
        body.calls.length = 2 ∧
        (∀ c ∈ body.calls, c.callee = calleeText r.targetType r.methodName r.isStatic ∧
          c.arguments.map Argument.name = r.parameterNames) ∧
        ((r.declaredNames.map identity).Nodup ↔ r.SparesReceiver identity) ∧
        (r.Resolves identity body ↔ r.SparesReceiver identity) := by
  obtain ⟨made, i, emitted⟩ := valid.exists_emitted n
  have facts := isEmittedAs_of_ofRecord emitted
  have routine : made = r.routine n i.literals := facts.routine
  have apart := nodup_declaredNames_iff ignores distinct
  refine ⟨made, i, emitted, ?_, fun _ mem => isName_of_mem_declaredNames named mem,
    made.body.written, ?_, ?_, ?_, apart, ?_⟩
  · rw [routine]
    exact ⟨_, declares_parameters r n i.literals, rfl⟩
  · rw [routine]
    exact (readBody_routine valid named facts.literals n).1
  · rw [calls_written_body]
    rfl
  · intro c mem
    obtain ⟨callee, names⟩ := names_of_mem_calls mem
    rw [callee, names, routine, writtenNames_routine]
    exact ⟨rfl, rfl⟩
  · refine ⟨sparesReceiver_of_resolves ignores, fun spares => ?_⟩
    rw [routine]
    exact resolves_of_nodup (apart.2 spares)

/-- The names of a call with a reserved word among them are told apart, and the third argument of
each call is the fourth declared name. -/
theorem resolves_savedCall :
    IgnoresMark bareName ∧ savedCall.SparesReceiver bareName ∧
      savedCall.declaredNames = ["@this", "key", "value", "@class"] ∧
      ∃ made i body, Emitted.ofRecord 5 savedCall = .routine made i ∧
        readBody made.callee (linesText (made.lines.drop 2)) = some body ∧
        ∀ c ∈ body.calls, ∃ a, c.arguments[2]? = some a ∧ a.name = "@class" ∧
          RefersTo bareName savedCall.declaredNames a.name 3 := by
  have spares : savedCall.SparesReceiver bareName := by
    unfold SparesReceiver
    decide +kernel
  obtain ⟨made, i, emitted, -, -, body, read, -, calls, -, resolves⟩ :=
    resolves_iff isValid_savedCall isNamed_savedCall ignoresMark_bareName (by decide +kernel) 5
  refine ⟨ignoresMark_bareName, spares, by decide +kernel, made, i, body, emitted, read, ?_⟩
  intro c mem
  have name : (c.arguments.map Argument.name)[2]? = some "@class" := by
    rw [(calls c mem).2]
    decide +kernel
  rw [List.getElem?_map, Option.map_eq_some_iff] at name
  obtain ⟨a, found, name⟩ := name
  exact ⟨a, found, name, (resolves.2 spares).arguments c mem 2 a found⟩

/-- A call of an instance method with a parameter that is named like the receiver. -/
def selfCall : CallSiteRecord where
  targetType := "App.Store"
  methodName := "Save"
  returnType := "string"
  isStatic := false
  location := ⟨"a.cs", 3, 7⟩
  locationKey := "a.cs:3:7"
  interceptsData := none
  parameters := [⟨"this", "string?", true, none⟩]
  markedParameters := [⟨0, .settled .guid, none, true⟩]

/-- The parameter of a record declares the name of the receiver a second time. -/
theorem declares_receiver_twice :
    selfCall.IsValid ∧ (∀ p ∈ selfCall.parameters, IsNamed p.name) ∧
      (selfCall.parameters.map fun p => bareName p.name).Nodup ∧
      ((Emitted.ofRecord 0 selfCall).routine?.map fun made => made.lines.take 2) = some
        ["[global::System.Runtime.CompilerServices.InterceptsLocation(@\"a.cs\", 3, 7)]",
          "public static string Save_0(this global::App.Store @this, string? @this = null)"] ∧
      selfCall.declaredNames = ["@this", "@this"] ∧
      ¬ (selfCall.declaredNames.map bareName).Nodup := by
  refine ⟨⟨List.cons_ne_nil _ _, ?_, by decide, ?_⟩, ?_, by decide +kernel, by decide +kernel,
    by decide +kernel, by decide +kernel⟩
  · simp [selfCall]
  · simp [selfCall]
  · unfold IsNamed
    decide +kernel

end CallSiteRecord

end CallSiteIds
