import CallSiteIds.Proofs.Source.BodyTokens

/-!
# Bodies are read back

A reader of bodies follows the grammar of the generated language as far as a body uses it: a
condition that some names are not null, statements for that case, and statements after it.  It
finds in the lines of a body what the body was made of, with its names as they are written
(`readBody_lines`).  So a meaning that is given to bodies as data is a meaning of their text.
-/

set_option autoImplicit false

namespace CallSiteIds.Source

/-! ## Reading tokens -/

/-- Reads the names that a condition asks for, up to the closing parenthesis. -/
def readGuard : List Token → Option (List String × List Token)
  | .name n :: .mark .differs :: .mark .nullWord :: .mark .also :: ts =>
    (readGuard ts).map fun (names, ts) => (n :: names, ts)
  | .name n :: .mark .differs :: .mark .nullWord :: .mark .closes :: ts => some ([n], ts)
  | _ => none

/-- Reads arguments up to the closing parenthesis, of which there is at least one. -/
def readArguments : List Token → Option (List Argument × List Token)
  | .name n :: .mark .closes :: ts => some ([.passed n], ts)
  | .name n :: .mark .comma :: ts =>
    (readArguments ts).map fun (as, ts) => (.passed n :: as, ts)
  | .name n :: .mark .orElse :: .literal value :: .mark .closes :: ts =>
    some ([.orLiteral n value], ts)
  | .name n :: .mark .orElse :: .literal value :: .mark .comma :: ts =>
    (readArguments ts).map fun (as, ts) => (.orLiteral n value :: as, ts)
  | _ => none

/-- Reads a call of the given method. -/
def readCall (callee : String) : List Token → Option (Call × List Token)
  | .callee :: .mark .opens :: .mark .closes :: .mark .semicolon :: ts => some (⟨callee, []⟩, ts)
  | .callee :: .mark .opens :: ts =>
    match readArguments ts with
    | some (as, .mark .semicolon :: ts) => some (⟨callee, as⟩, ts)
    | _ => none
  | _ => none

def readStatement (callee : String) : List Token → Option (Statement × List Token)
  | .mark .returnWord :: .mark .semicolon :: ts => some (.leave, ts)
  | .mark .returnWord :: ts => (readCall callee ts).map fun (call, ts) => (.answer call, ts)
  | ts => (readCall callee ts).map fun (call, ts) => (.perform call, ts)

/-- Reads statements up to the closing brace.  `fuel` bounds their number. -/
def readStatements (callee : String) : Nat → List Token → Option (List Statement × List Token)
  | 0, _ => none
  | _ + 1, .mark .ends :: ts => some ([], ts)
  | fuel + 1, ts =>
    match readStatement callee ts with
    | none => none
    | some (s, ts) =>
      (readStatements callee fuel ts).map fun (statements, ts) => (s :: statements, ts)

def bodyOfTokens? (callee : String) : List Token → Option Body
  | .mark .begins :: .mark .ifWord :: .mark .opens :: ts =>
    match readGuard ts with
    | some (guard, .mark .begins :: ts) =>
      match readStatements callee (ts.length + 1) ts with
      | some (guarded, ts) =>
        match readStatements callee (ts.length + 1) ts with
        | some (after, []) => some ⟨guard, guarded, after⟩
        | _ => none
      | none => none
    | _ => none
  | _ => none

/-- Reads the text of a body that calls the given method. -/
def readBody (callee : String) (cs : List Char) : Option Body :=
  (tokens callee.toList (cs.length + 1) cs).bind (bodyOfTokens? callee)

/-! ## Names as they are written -/

/-- An argument with its name as it is written. -/
def Argument.written : Argument → Argument
  | passed name => .passed (escapeName name)
  | orLiteral name literal => .orLiteral (escapeName name) literal

def Call.written (c : Call) : Call :=
  ⟨c.callee, c.arguments.map Argument.written⟩

def Statement.written : Statement → Statement
  | perform call => .perform call.written
  | answer call => .answer call.written
  | leave => .leave

/-- A body with its names as they are written. -/
def Body.written (b : Body) : Body :=
  ⟨b.guard.map escapeName, b.guarded.map Statement.written, b.after.map Statement.written⟩

/-! ## Reading what was written -/

theorem readGuard_guardTokens {names : List String} (nonempty : names ≠ []) (ts : List Token) :
    readGuard (guardTokens names ++ .mark .closes :: ts) = some (names.map escapeName, ts) := by
  induction names with
  | nil => exact absurd rfl nonempty
  | cons name names ih =>
    cases names with
    | nil => rfl
    | cons n names =>
      have later := ih (List.cons_ne_nil _ _)
      simp only [guardTokens, List.cons_append, readGuard, later]
      rfl

theorem readArguments_argumentTokens {as : List Argument} (nonempty : as ≠ [])
    (ts : List Token) :
    readArguments (argumentTokens as ++ .mark .closes :: ts) =
      some (as.map Argument.written, ts) := by
  induction as with
  | nil => exact absurd rfl nonempty
  | cons a as ih =>
    cases as with
    | nil => cases a <;> rfl
    | cons b as =>
      have later := ih (List.cons_ne_nil _ _)
      cases a with
      | passed name =>
        simp only [argumentTokens, Argument.tokens, List.cons_append, List.nil_append,
          readArguments, later]
        rfl
      | orLiteral name literal =>
        simp only [argumentTokens, Argument.tokens, List.cons_append, List.nil_append,
          readArguments, later]
        rfl

theorem readCall_tokens (c : Call) (ts : List Token) :
    readCall c.callee (c.tokens ++ ts) = some (c.written, ts) := by
  obtain ⟨callee, as⟩ := c
  cases as with
  | nil => rfl
  | cons a as =>
    have arguments := readArguments_argumentTokens (List.cons_ne_nil a as)
      (.mark .semicolon :: ts)
    have first : ∃ n us, argumentTokens (a :: as) ++ .mark .closes :: .mark .semicolon :: ts =
        .name n :: us := by
      cases a <;> cases as <;> exact ⟨_, _, rfl⟩
    obtain ⟨n, us, same⟩ := first
    rw [same] at arguments
    have all : Call.tokens ⟨callee, a :: as⟩ ++ ts = .callee :: .mark .opens :: .name n :: us := by
      rw [← same]
      simp [Call.tokens]
    rw [all, readCall, arguments]
    · rfl
    · simp

theorem readStatement_tokens {callee : String} {s : Statement} (call : s.IsCall callee)
    (ts : List Token) : readStatement callee (s.tokens ++ ts) = some (s.written, ts) := by
  cases s with
  | perform c =>
    obtain ⟨rfl, -⟩ := call c rfl
    have read := readCall_tokens c ts
    simp only [Statement.tokens, Call.tokens, List.cons_append] at read ⊢
    rw [readStatement, read]
    · rfl
    · simp
    · simp
  | answer c =>
    obtain ⟨rfl, -⟩ := call c rfl
    have read := readCall_tokens c ts
    simp only [Statement.tokens, Call.tokens, List.cons_append] at read ⊢
    rw [readStatement, read]
    · rfl
    · simp
  | leave => rfl

theorem readStatements_tokens {callee : String} {statements : List Statement}
    (calls : ∀ s ∈ statements, s.IsCall callee) {fuel : Nat} (enough : statements.length < fuel)
    (ts : List Token) :
    readStatements callee fuel (statements.flatMap Statement.tokens ++ .mark .ends :: ts) =
      some (statements.map Statement.written, ts) := by
  induction statements generalizing fuel with
  | nil =>
    obtain ⟨fuel, rfl⟩ := Nat.exists_eq_add_of_lt enough
    simp [readStatements]
  | cons s statements ih =>
    rw [List.length_cons] at enough
    obtain ⟨fuel, rfl⟩ : ∃ n, fuel = n + 1 := ⟨fuel - 1, by omega⟩
    have enough : statements.length < fuel := by omega
    have later := ih (fun t mem => calls t (List.mem_cons_of_mem _ mem)) enough
    have first := readStatement_tokens (calls s List.mem_cons_self)
      (statements.flatMap Statement.tokens ++ .mark .ends :: ts)
    rw [List.flatMap_cons, List.append_assoc, readStatements, first]
    · simp only [later, Option.map_some, List.map_cons]
    · intro us same
      cases s <;> cases same

theorem length_le_length_flatMap_tokens (statements : List Statement) :
    statements.length ≤ (statements.flatMap Statement.tokens).length := by
  induction statements with
  | nil => exact Nat.le_refl _
  | cons s statements ih =>
    have one : 1 ≤ s.tokens.length := by
      cases s <;> simp [Statement.tokens, Call.tokens]
    rw [List.flatMap_cons, List.length_append, List.length_cons]
    omega

/-- Statements are read from all that is left of the tokens. -/
theorem readStatements_of_rest {callee : String} {statements : List Statement}
    (calls : ∀ s ∈ statements, s.IsCall callee) {ts us : List Token}
    (same : ts = statements.flatMap Statement.tokens ++ .mark .ends :: us) :
    readStatements callee (ts.length + 1) ts = some (statements.map Statement.written, us) := by
  have count := length_le_length_flatMap_tokens statements
  have enough : statements.length < ts.length + 1 := by
    rw [same, List.length_append]
    omega
  have read := readStatements_tokens calls enough us
  rwa [← same] at read

theorem bodyOfTokens?_tokens {callee : String} {b : Body} (readable : b.IsReadable callee)
    (guarded : b.guard ≠ []) : bodyOfTokens? callee b.tokens = some b.written := by
  obtain ⟨last, atLast⟩ : ∃ ts, ts = b.after.flatMap Statement.tokens ++ [Token.mark .ends] :=
    ⟨_, rfl⟩
  obtain ⟨inner, atInner⟩ :
      ∃ ts, ts = b.guarded.flatMap Statement.tokens ++ Token.mark .ends :: last := ⟨_, rfl⟩
  have test := readGuard_guardTokens guarded (.mark .begins :: inner)
  have first := readStatements_of_rest readable.guarded atInner
  have second := readStatements_of_rest readable.after atLast
  have all : b.tokens = .mark .begins :: .mark .ifWord :: .mark .opens ::
      (guardTokens b.guard ++ .mark .closes :: .mark .begins :: inner) := by
    simp [Body.tokens, atInner, atLast]
  rw [all, bodyOfTokens?, test]
  simp only [first, second]
  rfl

/-- The lines of a body are read back as that body with its names as they are written, also when
the lines are placed otherwise. -/
theorem readBody_lines {callee : String} {b : Body} (readable : b.IsReadable callee)
    (guarded : b.guard ≠ []) (place : String → String)
    (keeps : ∀ line ts, SpellsLine callee line ts → SpellsLine callee (place line) ts) :
    readBody callee (linesText (b.lines.map place)) = some b.written := by
  have spelled := spellsLines_body readable keeps [] [] .nil
  rw [List.append_nil, List.append_nil] at spelled
  rw [readBody, tokens_of_spells spelled (Nat.lt_succ_self _), Option.bind_some]
  exact bodyOfTokens?_tokens readable guarded

end CallSiteIds.Source
