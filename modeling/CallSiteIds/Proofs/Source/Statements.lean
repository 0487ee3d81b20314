import CallSiteIds.Proofs.Source.Phrases

/-!
# Parameters and statements over pieces

A parameter is a type and a name, perhaps with a receiver mark before and a default behind.  The
statements are those that a body consists of: a choice by a condition, a block, a return, and an
expression that begins with a path.
-/

set_option autoImplicit false

namespace CallSiteIds.Source.Grammar

/-! ## Parameters -/

theorem takes_many_nil {item : Phrase} {ends : List Lexeme → Prop} (stop : Declines item ends) :
    Takes (.many item) [] ends := by
  apply takes_of_rule
  intro depth _ ls rest are right
  rw [eq_nil_of_are are, List.nil_append]
  show manyRule (readWithin depth) item rest = some rest
  rw [manyRule, stop depth rest right]

theorem declines_attributes : Declines .attributes (NotFollowed ["["]) := by
  apply declines_of_rule
  intro depth
  exact (refuses_symbol "[").then

/-- What may stand behind the name of a parameter: an equals sign and an expression, or
nothing. -/
def IsDefault (ps : List Piece) : Prop :=
  ps = [] ∨ ∃ value, ps = symbolPiece "=" :: value ∧ IsExpression value

/-- What may stand before the type of a parameter. -/
def receiverPieces (isReceiver : Bool) : List Piece :=
  if isReceiver then [wordPiece "this".toList] else []

theorem reads_default {depth : Nat} {ps : List Piece} (h : IsDefault ps)
    (deep : 16 * ps.length + 4 ≤ depth) :
    Reads (maybe (symbol "=" >=> readWithin depth .expression)) ps EndsItem := by
  obtain rfl | ⟨value, rfl, expression⟩ := h
  · exact (refuses_symbol_of_followed (by decide)).then.maybe
  · simp only [List.length_cons] at deep
    have read := expression.takes depth (by simp only [rank]; omega)
    exact ((read.mono fun rest right => followed_mono right (by decide)).behind "=").maybe

/-- The mark of a receiver is skipped, and no attribute stands before it. -/
theorem receiver_skipped {isReceiver : Bool} {p : Piece} {more : List Piece}
    (word : p.kind = .word)
    (begins : ∀ l : Lexeme, l.Is p → l.isAnyOf parameterWords = false) {ls₁ ls₂ rest : List Lexeme}
    (are₁ : Lexeme.Are ls₁ (receiverPieces isReceiver)) (are₂ : Lexeme.Are ls₂ (p :: more)) :
    NotFollowed ["["] (ls₁ ++ (ls₂ ++ rest)) ∧
      (ls₁ ++ (ls₂ ++ rest)).dropWhile (Lexeme.isAnyOf parameterWords) = ls₂ ++ rest := by
  have kept : (ls₂ ++ rest).dropWhile (Lexeme.isAnyOf parameterWords) = ls₂ ++ rest := by
    obtain ⟨l, others, rfl, is, -⟩ := exists_cons_of_are are₂
    exact List.dropWhile_cons_of_neg (by simp [begins l is])
  cases isReceiver with
  | false =>
    rw [eq_nil_of_are are₁, List.nil_append]
    exact ⟨notFollowed_of_word word are₂, kept⟩
  | true =>
    refine ⟨notFollowed_of_word rfl are₁, ?_⟩
    obtain ⟨l, others, rfl, is, none⟩ := exists_cons_of_are are₁
    have mark : l.isAnyOf parameterWords = true := by
      rw [isAnyOf_of_is is]
      decide
    rw [eq_nil_of_are none, List.singleton_append, List.dropWhile_cons_of_pos mark, kept]

/-- Pieces of a parameter wherever one stands. -/
def IsParameter (ps : List Piece) : Prop :=
  Takes .parameter ps EndsItem

theorem takes_parameter (isReceiver : Bool) {core : List Piece} (named : IsTypeName core)
    (nullable : Bool) {name : Piece} (word : name.kind = .word) {default : List Piece}
    (isDefault : IsDefault default) :
    IsParameter
      (receiverPieces isReceiver ++ (core ++ markPieces nullable ++ [name] ++ default)) := by
  apply takes_of_rule
  intro depth deep ls rest are right
  simp only [rank, List.length_append, List.length_singleton] at deep
  obtain ⟨ls₁, ls₂, rfl, are₁, are₂⟩ := exists_append_of_are are
  obtain ⟨p, segments, rfl, firstWord, -, apart⟩ := named.exists_path
  have begins : ∀ l : Lexeme, l.Is p → l.isAnyOf parameterWords = false :=
    fun l is => apart l is _ (by decide +kernel)
  obtain ⟨unmarked, dropped⟩ := receiver_skipped firstWord begins are₁ are₂
  have skipped := takes_many_nil declines_attributes depth
    (by simp only [rank, List.length_nil]; omega) [] (ls₁ ++ (ls₂ ++ rest)) .nil unmarked
  have typed : Reads (readWithin depth .type >=> anyWord)
      (p :: pathPieces segments ++ markPieces nullable ++ [name])
      Anything :=
    (takes_type named nullable depth (by simp only [rank, List.length_append]; omega)).then
      (reads_anyWord word) fun _ _ are _ => notFollowed_of_word word are
  obtain ⟨ls₃, ls₄, rfl, are₃, are₄⟩ := exists_append_of_are are₂
  simp only [List.nil_append, List.append_assoc] at skipped dropped
  have read := typed ls₃ (ls₄ ++ rest) are₃ trivial
  have value : maybe (symbol "=" >=> readWithin depth .expression) (ls₄ ++ rest) = some rest :=
    reads_default isDefault (by omega) ls₄ rest are₄ right
  simp only [Bind.kleisliRight, Option.bind_eq_bind] at read value
  simp only [rule, parameterRule, Bind.kleisliRight, Option.bind_eq_bind, List.append_assoc,
    skipped, Option.bind_some, dropped, read, Option.orElse_some, value]

theorem takes_parameters {items : List (List Piece)} (nonempty : items ≠ [])
    (each : ∀ ps ∈ items, IsParameter ps) :
    Takes .parameters (symbolPiece "(" :: (commaPieces items ++ [symbolPiece ")"])) Anything := by
  apply takes_of_rule
  intro depth deep
  simp only [rank, List.length_append, List.length_cons, List.length_nil] at deep
  exact reads_bracketed (takes_commaList nonempty each depth (by simp only [rank]; omega)) _

/-! ## Statements -/

/-- What does not go on with a choice. -/
def NotElse (rest : List Lexeme) : Prop :=
  ahead (Lexeme.isWord "else") rest = false

theorem notElse_of_followed {ss : List String} {rest : List Lexeme} (h : Followed ss rest) :
    NotElse rest := by
  obtain ⟨t, mem, lead, line, more, rfl⟩ := exists_of_followed h
  rfl

/-- Pieces that are a statement wherever one stands. -/
structure IsStatement (ps : List Piece) : Prop where
  takes : Takes .statement ps NotElse
  begins : ∃ p more, ps = p :: more ∧ ∀ l : Lexeme, l.Is p → l.isWord "else" = false

theorem IsStatement.notElse {ps : List Piece} (h : IsStatement ps) {ls rest : List Lexeme}
    (are : Lexeme.Are ls ps) : NotElse (ls ++ rest) := by
  obtain ⟨p, more, rfl, begins⟩ := h.begins
  exact ahead_of_are begins are

theorem declines_statement : Declines .statement (Followed ["\x7d"]) := by
  apply declines_of_rule
  intro depth rest right
  obtain ⟨lead, line, more, rfl⟩ := exists_of_followed_singleton right
  rfl

/-- Any number of statements before a closing brace. -/
theorem takes_statements {items : List (List Piece)} (each : ∀ ps ∈ items, IsStatement ps) :
    Takes (.many .statement) items.flatten (Followed ["\x7d"]) := by
  induction items with
  | nil => exact takes_many_nil declines_statement
  | cons ps items ih =>
    obtain ⟨first, each⟩ := List.forall_mem_cons.1 each
    apply takes_of_rule
    intro depth deep ls rest are right
    rw [List.flatten_cons] at deep are
    simp only [rank, List.length_append] at deep
    obtain ⟨ls₁, ls₂, rfl, are₁, are₂⟩ := exists_append_of_are are
    have longer : 0 < ps.length := by
      obtain ⟨p, more, rfl, -⟩ := first.begins
      exact Nat.succ_pos _
    have goesOn : NotElse (ls₂ ++ rest) := by
      cases items with
      | nil =>
        rw [eq_nil_of_are are₂, List.nil_append]
        exact notElse_of_followed right
      | cons qs items =>
        rw [List.flatten_cons] at are₂
        obtain ⟨ls₃, ls₄, rfl, are₃, -⟩ := exists_append_of_are are₂
        rw [List.append_assoc]
        exact (each qs List.mem_cons_self).notElse are₃
    have read := first.takes depth (by simp only [rank]; omega) ls₁ (ls₂ ++ rest) are₁ goesOn
    have later := ih each depth (by simp only [rank]; omega) ls₂ rest are₂ right
    show manyRule (readWithin depth) .statement (ls₁ ++ ls₂ ++ rest) = some rest
    rw [manyRule, List.append_assoc, read]
    exact later

theorem takes_block {items : List (List Piece)} (each : ∀ ps ∈ items, IsStatement ps) :
    Takes .block (symbolPiece "\x7b" :: (items.flatten ++ [symbolPiece "\x7d"])) Anything := by
  apply takes_of_rule
  intro depth deep
  simp only [rank, List.length_append, List.length_cons, List.length_nil] at deep
  have inside := takes_statements each depth (by simp only [rank]; omega)
  exact (inside.then (reads_symbol "\x7d") fun _ _ are _ =>
    followed_of_symbol (by decide) are).behind "\x7b"

/-- A block is a statement. -/
theorem isStatement_block {items : List (List Piece)} (each : ∀ ps ∈ items, IsStatement ps) :
    IsStatement (symbolPiece "\x7b" :: (items.flatten ++ [symbolPiece "\x7d"])) where
  takes := by
    apply takes_of_rule
    intro depth deep ls rest are _
    have block := takes_block each depth (by simp only [rank] at deep ⊢; omega) ls rest are trivial
    obtain ⟨l, more, rfl, is, -⟩ := exists_cons_of_are are
    obtain ⟨lead, line, rfl⟩ := exists_eq_of_is is
    exact block
  begins := ⟨_, _, rfl, fun l is => by
    obtain ⟨lead, line, rfl⟩ := exists_eq_of_is is
    rfl⟩

theorem declines_expression : Declines .expression (Followed [";"]) := by
  have operand : Declines .operand (Followed [";"]) := by
    apply declines_of_rule
    intro depth rest right
    obtain ⟨lead, line, more, rfl⟩ := exists_of_followed_singleton right
    rfl
  exact declines_of_rule fun depth => Refuses.then (operand depth)

/-- An expression or nothing. -/
def IsValue (ps : List Piece) : Prop :=
  ps = [] ∨ IsExpression ps

/-- A return with or without a value is a statement. -/
theorem isStatement_return {value : List Piece} (isValue : IsValue value) :
    IsStatement (wordPiece "return".toList :: (value ++ [symbolPiece ";"])) where
  takes := by
    apply takes_of_rule
    intro depth deep ls rest are _
    simp only [rank, List.length_append, List.length_cons, List.length_nil] at deep
    have read : Reads (maybe (readWithin depth .expression)) value (Followed [";"]) := by
      obtain rfl | expression := isValue
      · exact Refuses.maybe (declines_expression depth)
      · exact ((expression.takes depth (by simp only [rank]; omega)).mono fun rest right =>
          followed_mono right (by decide)).maybe
    have whole : Reads (maybe (readWithin depth .expression) >=> symbol ";")
        (value ++ [symbolPiece ";"]) Anything :=
      read.then (reads_symbol ";") fun _ _ are _ => followed_of_symbol (by decide) are
    obtain ⟨l, more, rfl, is, others⟩ := exists_cons_of_are are
    obtain ⟨lead, line, rfl⟩ := exists_eq_of_is is
    exact whole more rest others trivial
  begins := ⟨_, _, rfl, fun l is => by
    rw [isWord_of_is is]
    decide⟩

/-- A choice without an alternative is a statement. -/
theorem isStatement_if {condition ps : List Piece} (expression : IsExpression condition)
    (statement : IsStatement ps) :
    IsStatement (wordPiece "if".toList ::
      (symbolPiece "(" :: (condition ++ [symbolPiece ")"]) ++ ps)) where
  takes := by
    apply takes_of_rule
    intro depth deep ls rest are right
    simp only [rank, List.length_append, List.length_cons, List.length_nil] at deep
    have tested : Reads (Grammar.condition (readWithin depth))
        (symbolPiece "(" :: (condition ++ [symbolPiece ")"])) Anything :=
      ((expression.takes depth (by simp only [rank]; omega)).then (reads_symbol ")")
        fun _ _ are _ => followed_of_symbol (by decide) are).behind "("
    have noElse : Refuses (word "else" >=> readWithin depth .statement) NotElse :=
      Refuses.then (refuses_one fun _ other => other)
    have read := statement.takes depth (by simp only [rank]; omega)
    have whole := tested.then (read.then noElse.maybe fun _ _ are right => by
      rwa [eq_nil_of_are are]) fun _ _ _ _ => trivial
    rw [List.append_nil] at whole
    obtain ⟨l, more, rfl, is, others⟩ := exists_cons_of_are are
    obtain ⟨lead, line, rfl⟩ := exists_eq_of_is is
    exact whole more rest others right
  begins := ⟨_, _, rfl, fun l is => by
    rw [isWord_of_is is]
    decide⟩

/-- A free word that no colon follows begins no statement of a special form. -/
theorem wordStatementRule_of_isFree {depth : Nat} {p : Piece} {l : Lexeme} (free : IsFree p)
    (is : l.Is p) {rest : List Lexeme} (unnamed : ahead (Lexeme.isSymbol ":") rest = false)
    (ts : List Lexeme) :
    wordStatementRule (readWithin depth) l rest ts = plainStatement (readWithin depth) ts := by
  have word {w : String} (known : w ∈ meaningfulWords) : l.isWord w = false :=
    isWord_of_isFree free is known
  have anyOf {ws : List String} (known : ∀ w ∈ ws, w ∈ meaningfulWords) : l.isAnyOf ws = false :=
    isAnyOf_of_isFree free is known
  unfold wordStatementRule
  simp (disch := decide +kernel) only [word, anyOf, unnamed, Bool.false_eq_true, if_false,
    Bool.false_and, Bool.and_false]

/-- Pieces of an expression that begins with a path, and go on with an argument or a value. -/
structure IsPathExpression (ps : List Piece) : Prop where
  expression : IsExpression ps
  path : ∃ p segments s tail, ps = p :: pathPieces segments ++ symbolPiece s :: tail ∧ IsFree p ∧
    IsPath segments ∧ s ∈ ["(", "="]

/-- What begins with a path and goes on otherwise than with a name declares nothing. -/
theorem IsPathExpression.declares_nothing {ps : List Piece} (h : IsPathExpression ps) {depth : Nat}
    (deep : 16 * ps.length + 3 ≤ depth) {ls rest : List Lexeme} (are : Lexeme.Are ls ps)
    (test : Lexeme → Bool) (named : ∀ l, test l = true → l.isName = true) (r : Reader) :
    (readWithin depth .type >=> guarded test >=> r) (ls ++ rest) = none := by
  obtain ⟨p, segments, s, tail, rfl, free, path, symbol⟩ := h.path
  simp only [List.length_append] at deep
  obtain ⟨ls₁, ls₂, rfl, are₁, are₂⟩ := exists_append_of_are are
  rw [List.mem_pair] at symbol
  have stops : EndsType (ls₂ ++ rest) := by
    refine notFollowed_of_symbol ?_ are₂
    rcases symbol with rfl | rfl <;> decide
  have core := takes_type (.path free path) false
  rw [markPieces, if_neg (by decide), List.append_nil] at core
  have read := core depth (by simp only [rank]; omega) ls₁ (ls₂ ++ rest) are₁ stops
  have other : ahead test (ls₂ ++ rest) = false := by
    refine ahead_of_are (fun l is => ?_) are₂
    cases passes : test l with
    | false => rfl
    | true =>
      have name := named l passes
      rw [Lexeme.isName, is.kind] at name
      cases name
  have refused : guarded test (ls₂ ++ rest) = none := by
    rw [guarded, other]
    rfl
  rw [List.append_assoc]
  show (readWithin depth .type (ls₁ ++ (ls₂ ++ rest))).bind (guarded test >=> r) = none
  rw [read]
  show (guarded test (ls₂ ++ rest)).bind r = none
  rw [refused, Option.bind_none]

/-- An expression that begins with a path is a statement. -/
theorem IsPathExpression.isStatement {ps : List Piece} (h : IsPathExpression ps) :
    IsStatement (ps ++ [symbolPiece ";"]) where
  takes := by
    apply takes_of_rule
    intro depth deep ls rest are _
    simp only [rank, List.length_append, List.length_singleton] at deep
    obtain ⟨ls₁, ls₂, rfl, are₁, are₂⟩ := exists_append_of_are are
    have declared (test : Lexeme → Bool) (named : ∀ l, test l = true → l.isName = true)
        (r : Reader) :
        (readWithin depth .type >=> guarded test >=> r) (ls₁ ++ (ls₂ ++ rest)) = none :=
      h.declares_nothing (by omega) are₁ test named r
    have value := ((h.expression.takes depth (by simp only [rank]; omega)).then
      (reads_symbol ";" : Reads _ _ Anything) fun _ _ are _ => followed_of_symbol (by decide) are)
        (ls₁ ++ ls₂) rest are trivial
    have unnamed := h.expression.unnamed
    obtain ⟨p, segments, s, tail, rfl, free, -⟩ := h.path
    obtain ⟨l, more, rfl, is, others⟩ := exists_cons_of_are are₁
    have colon : ahead (Lexeme.isSymbol ":") (more ++ (ls₂ ++ rest)) = false :=
      HasNoColon.notFollowed (List.forall_mem_cons.1 unnamed).2 others
        (notFollowed_of_symbol (by decide) are₂)
    have symbol := isSymbol_of_word free.word is
    simp only [List.append_assoc, List.cons_append] at value declared ⊢
    simp only [rule, statementRule, symbol, is.kind, free.word, Bool.false_eq_true, if_false,
      beq_self_eq_true, if_true, wordStatementRule_of_isFree free is colon]
    rw [plainStatement]
    rw [declared _ (fun l named => (Bool.and_eq_true _ _ ▸ named).1), Option.orElse_none, value,
      Option.orElse_some]
  begins := by
    obtain ⟨p, segments, s, tail, rfl, free, -⟩ := h.path
    exact ⟨p, _, rfl, fun l is => isWord_of_isFree free is (by decide)⟩

end CallSiteIds.Source.Grammar
