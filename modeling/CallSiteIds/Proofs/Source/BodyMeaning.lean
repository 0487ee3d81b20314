import CallSiteIds.Proofs.Source.BodyReading

/-!
# The meaning of a body

A body runs in a frame, which gives values to the names of the parameters; a parameter that is
null has no value.  Running a body makes calls of the intercepted method and may return the
answer of one.  Both states of a routine come to the same: one call, with the literal for each
marked parameter that is null and the value of the caller for every other (`run?_written_body`).
-/

set_option autoImplicit false

namespace CallSiteIds.Source

/-! ## Runs -/

/-- A call that was made, with its arguments; null is no value. -/
structure Performed (α : Type) where
  callee : String
  arguments : List (Option α)

/-- What bodies run on: the identity of a name, the value of a text, and the answers of the
intercepted method. -/
structure Machine (κ α ρ : Type) where
  identity : String → κ
  text : String → α
  respond : Performed α → ρ

/-- The parameters of a routine with the values they were called with. -/
abbrev Frame (α : Type) :=
  List (String × Option α)

/-- What was done: the calls in order, whether a statement returned, and with which result. -/
structure Run (α ρ : Type) where
  calls : List (Performed α)
  returned : Bool
  result : Option ρ

/-- All of some values, when each is there. -/
def gather {β : Type} : List (Option β) → Option (List β)
  | [] => some []
  | v :: vs =>
    match v, gather vs with
    | some v, some vs => some (v :: vs)
    | _, _ => none

theorem gather_map_some {β : Type} (vs : List β) : gather (vs.map some) = some vs := by
  induction vs with
  | nil => rfl
  | cons v vs ih => simp only [List.map_cons, gather, ih]

section Running

variable {κ α ρ : Type} [DecidableEq κ] (machine : Machine κ α ρ) (frame : Frame α)

/-- The value of a name; none when no parameter has the name. -/
def Machine.value? (name : String) : Option (Option α) :=
  (frame.find? fun d => machine.identity d.1 = machine.identity name).map (·.2)

def Argument.value? : Argument → Option (Option α)
  | passed name => machine.value? frame name
  | orLiteral name literal =>
    (machine.value? frame name).map fun v => v.or (some (machine.text literal))

/-- Makes a call. -/
def Call.perform? (c : Call) : Option (Performed α) :=
  (gather (c.arguments.map (Argument.value? machine frame))).map (Performed.mk c.callee)

def Statement.run? : Statement → Option (Run α ρ)
  | perform call => (call.perform? machine frame).map fun p => ⟨[p], false, none⟩
  | answer call => (call.perform? machine frame).map fun p => ⟨[p], true, some (machine.respond p)⟩
  | leave => some ⟨[], true, none⟩

/-- Runs statements up to one that returns. -/
def runAll? : List Statement → Option (Run α ρ)
  | [] => some ⟨[], false, none⟩
  | s :: rest =>
    match s.run? machine frame with
    | none => none
    | some first =>
      if first.returned then some first
      else (runAll? rest).map fun later => { later with calls := first.calls ++ later.calls }

def Body.run? (b : Body) : Option (Run α ρ) :=
  match gather (b.guard.map (machine.value? frame)) with
  | none => none
  | some values =>
    if values.all Option.isSome then runAll? machine frame (b.guarded ++ b.after)
    else runAll? machine frame b.after

end Running

/-! ## What a forwarded parameter is replaced by -/

/-- The argument for a forwarded parameter that has a value: its literal, if it is marked and
null, and its value otherwise. -/
def Forwarded.argument {α : Type} (text : String → α) (f : Forwarded) (v : Option α) : Option α :=
  v.or (f.literal.map text)

/-- The arguments for forwarded parameters. -/
def forwardedArguments {α : Type} (text : String → α) (fs : List Forwarded)
    (vs : List (Option α)) : List (Option α) :=
  List.zipWith (Forwarded.argument text) fs vs

/-- The name of a forwarded parameter as it is written. -/
def Forwarded.writtenName (f : Forwarded) : String :=
  escapeName f.name

section Forwarding

variable {κ α ρ : Type} [DecidableEq κ] {machine : Machine κ α ρ} {frame : Frame α}

theorem values_plain {fs : List Forwarded} {vs : List (Option α)}
    (declared : fs.map (fun f => machine.value? frame f.writtenName) = vs.map some) :
    ((fs.map Forwarded.plain).map Argument.written).map (Argument.value? machine frame) =
      vs.map some := by
  rw [← declared, List.map_map, List.map_map]
  rfl

theorem value?_synthesized {f : Forwarded} {v : Option α}
    (declared : machine.value? frame f.writtenName = some v) :
    f.synthesized.written.value? machine frame = some (f.argument machine.text v) := by
  unfold Forwarded.synthesized Forwarded.argument
  cases f.literal with
  | none =>
    rw [Option.map_none, Option.or_none]
    exact declared
  | some literal =>
    have declared : machine.value? frame (escapeName f.name) = some v := declared
    simp only [Argument.written, Argument.value?, declared, Option.map_some]

theorem values_synthesized {fs : List Forwarded} {vs : List (Option α)}
    (declared : fs.map (fun f => machine.value? frame f.writtenName) = vs.map some) :
    ((fs.map Forwarded.synthesized).map Argument.written).map (Argument.value? machine frame) =
      (forwardedArguments machine.text fs vs).map some := by
  induction fs generalizing vs with
  | nil => rfl
  | cons f fs ih =>
    cases vs with
    | nil => cases declared
    | cons v vs =>
      injection declared with first others
      rw [forwardedArguments, List.zipWith_cons_cons, List.map_cons, List.map_cons, List.map_cons,
        List.map_cons, value?_synthesized first, ih others]
      rfl

/-- The condition of a routine asks for the marked parameters; when all of them have values the
arguments are the values as they are. -/
theorem values_guard {fs : List Forwarded} {vs : List (Option α)}
    (declared : fs.map (fun f => machine.value? frame f.writtenName) = vs.map some) :
    ∃ ws : List (Option α),
      (((fs.filter (·.literal.isSome)).map (·.name)).map escapeName).map
        (machine.value? frame) = ws.map some ∧
      (ws.all Option.isSome = true → forwardedArguments machine.text fs vs = vs) := by
  induction fs generalizing vs with
  | nil =>
    cases vs with
    | nil => exact ⟨[], rfl, fun _ => rfl⟩
    | cons v vs => cases declared
  | cons f fs ih =>
    cases vs with
    | nil => cases declared
    | cons v vs =>
      injection declared with first others
      obtain ⟨ws, later, same⟩ := ih others
      cases marked : f.literal with
      | none =>
        refine ⟨ws, ?_, ?_⟩
        · rw [List.filter_cons_of_neg (by simp [marked])]
          exact later
        · intro present
          have kept : f.argument machine.text v = v := by
            rw [Forwarded.argument, marked, Option.map_none, Option.or_none]
          rw [forwardedArguments, List.zipWith_cons_cons, kept]
          exact congrArg (v :: ·) (same present)
      | some literal =>
        refine ⟨v :: ws, ?_, ?_⟩
        · rw [List.filter_cons_of_pos (by simp [marked])]
          have first : machine.value? frame (escapeName f.name) = some v := first
          rw [List.map_cons, List.map_cons, List.map_cons, List.map_cons, first, later]
        · intro present
          rw [List.all_cons, Bool.and_eq_true] at present
          obtain ⟨w, rfl⟩ := Option.isSome_iff_exists.1 present.1
          rw [forwardedArguments, List.zipWith_cons_cons]
          exact congrArg (some w :: ·) (same present.2)

/-- The statement that forwards a call makes the call, and returns its answer unless the routine
returns nothing. -/
theorem run?_written_forward {r : Routine} {as : List Argument} {vs : List (Option α)}
    (values : (as.map Argument.written).map (Argument.value? machine frame) = vs.map some) :
    (r.forward as).written.run? machine frame =
      some ⟨[⟨r.callee, vs⟩], !r.isVoid,
        if r.isVoid then none else some (machine.respond ⟨r.callee, vs⟩)⟩ := by
  have performed : (Call.written ⟨r.callee, as⟩).perform? machine frame =
      some ⟨r.callee, vs⟩ := by
    unfold Call.perform? Call.written
    rw [values, gather_map_some, Option.map_some]
  unfold Routine.forward
  cases r.isVoid with
  | true => simp [Statement.written, Statement.run?, performed]
  | false => simp [Statement.written, Statement.run?, performed]

/-- Statements that begin with a forwarded call make no other call, as long as a routine that
returns nothing leaves before it. -/
theorem runAll?_forward {r : Routine} {as : List Argument} {vs : List (Option α)}
    {rest : List Statement}
    (values : (as.map Argument.written).map (Argument.value? machine frame) = vs.map some)
    (leaves : r.isVoid = true → rest = [] ∨ ∃ later, rest = .leave :: later) :
    ∃ run, runAll? machine frame ((r.forward as).written :: rest) = some run ∧
      run.calls = [⟨r.callee, vs⟩] ∧
      run.result = if r.isVoid then none else some (machine.respond ⟨r.callee, vs⟩) := by
  have first := run?_written_forward (r := r) values
  have leave : Statement.run? machine frame .leave = some ⟨[], true, none⟩ := rfl
  cases void : r.isVoid with
  | false =>
    rw [void] at first
    simp [runAll?, first]
  | true =>
    rw [void] at first
    rcases leaves void with rfl | ⟨later, rfl⟩
    · simp [runAll?, first]
    · simp [runAll?, first, leave]

/-- A routine forwards one call, in either state. -/
theorem run?_written_body {r : Routine} {vs : List (Option α)}
    (declared : r.arguments.map (fun f => machine.value? frame f.writtenName) = vs.map some) :
    ∃ run, r.body.written.run? machine frame = some run ∧
      run.calls = [⟨r.callee, forwardedArguments machine.text r.arguments vs⟩] ∧
      run.result = if r.isVoid then none
        else some (machine.respond ⟨r.callee, forwardedArguments machine.text r.arguments vs⟩) := by
  obtain ⟨ws, guard, same⟩ := values_guard declared
  have guard : gather (r.body.written.guard.map (machine.value? frame)) = some ws := by
    rw [← gather_map_some ws, ← guard]
    rfl
  unfold Body.run?
  rw [guard]
  by_cases present : ws.all Option.isSome = true
  · -- All marked parameters are there, so no literal would be used.
    simp only [if_pos present, same present]
    apply runAll?_forward (values_plain declared)
    intro void
    rw [if_pos void]
    exact Or.inr ⟨_, rfl⟩
  · simp only [if_neg present]
    exact runAll?_forward (values_synthesized declared) fun _ => Or.inl rfl

end Forwarding

/-! ## Names in a frame -/

section Lookup

variable {κ α ρ : Type} [DecidableEq κ] (machine : Machine κ α ρ)

/-- A parameter has its own value when no two parameters share a name. -/
theorem value?_of_mem {frame : Frame α}
    (distinct : (frame.map fun d => machine.identity d.1).Nodup) {name : String} {v : Option α}
    (mem : (name, v) ∈ frame) : machine.value? frame name = some v := by
  unfold Machine.value?
  induction frame with
  | nil => cases mem
  | cons d frame ih =>
    rw [List.map_cons, List.nodup_cons] at distinct
    rcases List.mem_cons.1 mem with rfl | mem
    · rw [List.find?_cons_of_pos (by simp), Option.map_some]
    · rw [List.find?_cons_of_neg]
      · exact ih distinct.2 mem
      · intro same
        have same := of_decide_eq_true same
        have listed : machine.identity name ∈ frame.map fun d => machine.identity d.1 :=
          List.mem_map.2 ⟨_, mem, rfl⟩
        exact distinct.1 (same ▸ listed)

/-- Parameters that are declared after others have their own values. -/
theorem map_value?_append_zip {front : Frame α} {names : List String} {vs : List (Option α)}
    (count : vs.length = names.length)
    (distinct : ((front.map Prod.fst ++ names).map machine.identity).Nodup) :
    names.map (machine.value? (front ++ names.zip vs)) = vs.map some := by
  have first : (names.zip vs).map Prod.fst = names :=
    List.map_fst_zip (Nat.le_of_eq count.symm)
  have second : (names.zip vs).map Prod.snd = vs := List.map_snd_zip (Nat.le_of_eq count)
  have identities : (front ++ names.zip vs).map (fun d => machine.identity d.1) =
      (front.map Prod.fst ++ names).map machine.identity := by
    calc (front ++ names.zip vs).map (fun d => machine.identity d.1)
        = ((front ++ names.zip vs).map Prod.fst).map machine.identity := List.map_map.symm
      _ = (front.map Prod.fst ++ names).map machine.identity := by rw [List.map_append, first]
  rw [← identities] at distinct
  have each : ∀ d ∈ names.zip vs, machine.value? (front ++ names.zip vs) d.1 = some d.2 := by
    intro d mem
    exact value?_of_mem machine distinct (List.mem_append_right _ mem)
  calc names.map (machine.value? (front ++ names.zip vs))
      = ((names.zip vs).map Prod.fst).map (machine.value? (front ++ names.zip vs)) := by
        rw [first]
    _ = (names.zip vs).map fun d => machine.value? (front ++ names.zip vs) d.1 := List.map_map
    _ = (names.zip vs).map fun d => some d.2 := List.map_congr_left each
    _ = ((names.zip vs).map Prod.snd).map some := List.map_map.symm
    _ = vs.map some := by rw [second]

end Lookup

end CallSiteIds.Source
