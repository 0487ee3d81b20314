import CallSiteIds.Proofs.Source.Readers

/-!
# Types and expressions over pieces

Types are names with points and double colons, perhaps with a question mark behind.  Expressions
are operands with symbols between: literals, constants, and paths of names that may end with a
call.  Each is taken whole wherever it stands, because what stands behind it does not go on with
it.
-/

set_option autoImplicit false

namespace CallSiteIds.Source.Grammar

/-! ## Types -/

/-- What does not go on with a path. -/
def EndsPath : List Lexeme → Prop :=
  NotFollowed ["<", ".", "::"]

/-- What does not go on with a type. -/
def EndsType : List Lexeme → Prop :=
  NotFollowed ["<", ".", "::", "?", "*", "["]

/-- Further names of a path, each with the symbol before it. -/
def pathPieces (segments : List (String × Piece)) : List Piece :=
  segments.flatMap fun x => [symbolPiece x.1, x.2]

/-- The symbols of a path are points or double colons, and the names are words. -/
def IsPath (segments : List (String × Piece)) : Prop :=
  ∀ x ∈ segments, x.1 ∈ [".", "::"] ∧ x.2.kind = .word

theorem declines_typeArguments : Declines .typeArguments (NotFollowed ["<"]) := by
  apply declines_of_rule
  intro depth
  exact (refuses_symbol "<").then

theorem reads_typePath_nil (depth : Nat) : Reads (typePathRule (readWithin depth)) [] EndsPath := by
  intro ls rest are right
  have none := declines_typeArguments depth rest (notFollowed_mono right (by decide))
  have stops : NotFollowed [".", "::"] rest := notFollowed_mono right (by decide)
  rw [eq_nil_of_are are, List.nil_append, typePathRule, none, Option.getD_none]
  split
  · rename_i dot w more
    have other : dot.isSymbolOf [".", "::"] = false := stops
    rw [other]
    rfl
  · rfl

theorem reads_typePath_cons {depth : Nat} {s : String} {w : Piece} {ps : List Piece}
    {ends : List Lexeme → Prop} (symbol : s ∈ [".", "::"]) (word : w.kind = .word)
    (later : Reads (readWithin depth .typePath) ps ends) :
    Reads (typePathRule (readWithin depth)) (symbolPiece s :: w :: ps) ends := by
  intro ls rest are right
  obtain ⟨dot, more, rfl, isDot, are⟩ := exists_cons_of_are are
  obtain ⟨l, more, rfl, isWord, others⟩ := exists_cons_of_are are
  obtain ⟨lead, line, rfl⟩ := exists_eq_of_is isDot
  rw [List.mem_pair] at symbol
  have none := declines_typeArguments depth
    (⟨.symbol, s.toList, lead, line⟩ :: l :: (more ++ rest))
    (by rcases symbol with rfl | rfl <;> rfl)
  have point : Lexeme.isSymbolOf [".", "::"] ⟨.symbol, s.toList, lead, line⟩ = true := by
    rcases symbol with rfl | rfl <;> rfl
  show typePathRule (readWithin depth)
    (⟨.symbol, s.toList, lead, line⟩ :: l :: (more ++ rest)) = some rest
  rw [typePathRule, none, Option.getD_none]
  simp only [point, isWord.kind, word, beq_self_eq_true, Bool.and_self, if_true]
  exact later more rest others right

theorem takes_typePath {segments : List (String × Piece)} (path : IsPath segments) :
    Takes .typePath (pathPieces segments) EndsPath := by
  induction segments with
  | nil => exact takes_of_rule fun depth _ => reads_typePath_nil depth
  | cons x segments ih =>
    obtain ⟨⟨symbol, word⟩, path⟩ := List.forall_mem_cons.1 path
    apply takes_of_rule
    intro depth deep
    refine reads_typePath_cons symbol word (ih path depth ?_)
    simp only [pathPieces, List.flatMap_cons, List.length_append, List.length_cons] at deep ⊢
    omega

/-- The marks that may stand behind a type: a question mark or nothing. -/
def markPieces (nullable : Bool) : List Piece :=
  if nullable then [symbolPiece "?"] else []

theorem takes_typeTail (nullable : Bool) : Takes .typeTail (markPieces nullable) EndsType := by
  have nothing (depth : Nat) : Reads (typeTailRule (readWithin depth)) [] EndsType := by
    intro ls rest are right
    rw [eq_nil_of_are are, List.nil_append]
    cases rest with
    | nil => rfl
    | cons l more =>
      have question : l.isSymbol "?" = false := notFollowed_of_mem right (by decide)
      have star : l.isSymbol "*" = false := notFollowed_of_mem right (by decide)
      have bracket : l.isSymbol "[" = false := notFollowed_of_mem right (by decide)
      simp [typeTailRule, question, star, bracket]
  cases nullable with
  | false => exact takes_of_rule fun depth _ => nothing depth
  | true =>
    apply takes_of_rule
    intro depth deep ls rest are right
    obtain ⟨l, more, rfl, is, others⟩ := exists_cons_of_are are
    obtain ⟨lead, line, rfl⟩ := exists_eq_of_is is
    have later : Takes .typeTail [] EndsType := takes_of_rule fun depth _ => nothing depth
    exact later depth (by simp [rank, markPieces] at deep ⊢; omega) more rest others right

/-- A name of a type as it may stand in a source: one that the language predefines, or a free
word and further names. -/
inductive IsTypeName : List Piece → Prop where
  | predefined {w : String} (listed : w ∈ predefinedTypes) : IsTypeName [wordPiece w.toList]
  | path {w : Piece} {segments : List (String × Piece)} (free : IsFree w) (path : IsPath segments) :
      IsTypeName (w :: pathPieces segments)

theorem takes_typeCore {ps : List Piece} (named : IsTypeName ps) :
    Takes .typeCore ps EndsPath := by
  apply takes_of_rule
  intro depth deep ls rest are right
  cases named with
  | @predefined w listed =>
    obtain ⟨l, more, rfl, is, others⟩ := exists_cons_of_are are
    obtain rfl := eq_nil_of_are others
    have bracket : l.isSymbol "(" = false := isSymbol_of_word (p := wordPiece w.toList) rfl is "("
    have predefined : l.isAnyOf predefinedTypes = true := by
      rw [isAnyOf_of_is is, decide_eq_true listed]
    simp [rule, typeCoreRule, bracket, predefined]
  | @path w segments free path =>
    obtain ⟨l, more, rfl, is, others⟩ := exists_cons_of_are are
    have bracket := isSymbol_of_word free.word is "("
    have predefined : l.isAnyOf predefinedTypes = false := isAnyOf_of_isFree free is (by decide)
    have named := isName_of_isFree free is
    simp only [rule, typeCoreRule, List.cons_append, bracket, predefined, named, if_true,
      Bool.false_eq_true, if_false]
    refine takes_typePath path depth ?_ more rest others right
    simp [rank] at deep ⊢
    omega

/-- The name of a type is a word that means nothing else, and further names. -/
theorem IsTypeName.exists_path {ps : List Piece} (named : IsTypeName ps) :
    ∃ p segments, ps = p :: pathPieces segments ∧ p.kind = .word ∧ IsPath segments ∧
      ∀ l : Lexeme, l.Is p → ∀ ws : List String,
        (∀ w ∈ ws, w ∈ meaningfulWords ∧ w ∉ predefinedTypes) → l.isAnyOf ws = false := by
  cases named with
  | @predefined w listed =>
    refine ⟨_, [], rfl, rfl, by simp [IsPath], fun l is ws apart => ?_⟩
    rw [isAnyOf_of_is is, decide_eq_false_iff_not]
    intro mem
    exact (apart w mem).2 listed
  | @path w segments free path =>
    refine ⟨w, segments, rfl, free.word, path, fun l is ws apart => ?_⟩
    exact isAnyOf_of_isFree free is fun v mem => (apart v mem).1

theorem takes_type {ps : List Piece} (named : IsTypeName ps) (nullable : Bool) :
    Takes .type (ps ++ markPieces nullable) EndsType := by
  apply takes_of_rule
  intro depth deep
  have marked : (markPieces nullable).length ≤ 1 := by cases nullable <;> decide
  obtain ⟨p, segments, rfl, -, -, apart⟩ := named.exists_path
  simp only [rank, List.length_append, List.length_cons] at deep
  have core := takes_typeCore named depth (by simp only [rank, List.length_cons]; omega)
  have tail := takes_typeTail nullable depth (by simp only [rank]; omega)
  have whole := core.then tail (by
    intro ls rest are right
    cases nullable with
    | false =>
      rw [eq_nil_of_are are, List.nil_append]
      exact notFollowed_mono right (by decide)
    | true => exact notFollowed_of_symbol (by decide) are)
  intro ls rest are right
  have found := whole ls rest are right
  obtain ⟨l, others, rfl, is, -⟩ := exists_cons_of_are are
  have notRef : l.isWord "ref" = false := by
    rw [isWord_eq_isAnyOf]
    exact apart l is _ (by decide +kernel)
  simp only [rule, typeRule, List.cons_append, notRef]
  exact found

/-! ## Lists -/

/-- What stands behind an item of a list in parentheses. -/
def EndsItem : List Lexeme → Prop :=
  Followed [",", ")"]

/-- Items with commas between. -/
def commaPieces : List (List Piece) → List Piece
  | [] => []
  | [item] => item
  | item :: items => item ++ symbolPiece "," :: commaPieces items

theorem takes_commaList {item : Phrase} {items : List (List Piece)} (nonempty : items ≠ [])
    (each : ∀ ps ∈ items, Takes item ps EndsItem) :
    Takes (.commaList item) (commaPieces items) (Followed [")"]) := by
  induction items with
  | nil => exact absurd rfl nonempty
  | cons ps items ih =>
    obtain ⟨first, each⟩ := List.forall_mem_cons.1 each
    apply takes_of_rule
    intro depth deep ls rest are right
    cases items with
    | nil =>
      have read := first depth (by simp only [commaPieces, rank] at deep; omega) ls rest are
        (followed_mono right (by decide))
      obtain ⟨lead, line, more, rfl⟩ := exists_of_followed_singleton right
      show commaListRule (readWithin depth) item _ = _
      rw [commaListRule, read]
      rfl
    | cons qs items =>
      have pieces : commaPieces (ps :: qs :: items) =
          ps ++ symbolPiece "," :: commaPieces (qs :: items) := rfl
      rw [pieces] at deep are
      simp only [List.length_append, List.length_cons, rank] at deep
      obtain ⟨ls₁, ls₂, rfl, are₁, are₂⟩ := exists_append_of_are are
      have read := first depth (by omega) ls₁ (ls₂ ++ rest) are₁
        (followed_of_symbol (by decide) are₂)
      obtain ⟨l, more, rfl, is, are₃⟩ := exists_cons_of_are are₂
      obtain ⟨lead, line, rfl⟩ := exists_eq_of_is is
      have later := ih (by simp) each depth (by simp only [rank]; omega) more rest are₃ right
      show commaListRule (readWithin depth) item _ = _
      rw [List.append_assoc, commaListRule, read]
      exact later

/-- A list in parentheses. -/
theorem reads_bracketed {depth : Nat} {list : Phrase} {ps : List Piece}
    (h : Reads (readWithin depth list) ps (Followed [")"])) (ends : List Lexeme → Prop) :
    Reads (bracketed (readWithin depth) "(" ")" list)
      (symbolPiece "(" :: (ps ++ [symbolPiece ")"])) ends :=
  (h.maybe.then (reads_symbol ")") fun _ _ are _ => followed_of_symbol (by decide) are).behind "("

theorem takes_arguments {ps : List Piece}
    (list : Takes (.commaList .argument) ps (Followed [")"])) :
    Takes .arguments (symbolPiece "(" :: (ps ++ [symbolPiece ")"])) Anything := by
  apply takes_of_rule
  intro depth deep
  simp only [rank, List.length_append, List.length_cons, List.length_nil] at deep
  exact reads_bracketed (list depth (by simp only [rank]; omega)) _

/-! ## Operands -/

/-- What stands behind an operand. -/
def EndsOperand : List Lexeme → Prop :=
  Followed [")", ",", ";", "!=", "&&", "??", "="]

/-- What stands behind an expression. -/
def EndsExpression : List Lexeme → Prop :=
  Followed [")", ",", ";"]

/-- Pieces of a call behind a path: arguments in parentheses or nothing. -/
def IsCallTail (ps : List Piece) : Prop :=
  ps = [] ∨ (∃ more, ps = symbolPiece "(" :: more) ∧ Takes .arguments ps Anything

/-- Where no type arguments lie ahead, there are none for a call. -/
theorem callArguments_eq {depth : Nat} {ts : List Lexeme} (other : NotFollowed ["<"] ts) :
    callArguments (readWithin depth) ts = some ts :=
  (Refuses.maybe (Refuses.then (declines_typeArguments depth))) [] ts .nil other

theorem takes_postfixes_nil : Takes .postfixes [] EndsOperand := by
  apply takes_of_rule
  intro depth _ ls rest are right
  rw [eq_nil_of_are are, List.nil_append]
  obtain ⟨t, mem, lead, line, more, rfl⟩ := exists_of_followed right
  rw [rule]
  simp only [List.mem_cons, List.not_mem_nil, or_false] at mem
  rcases mem with rfl | rfl | rfl | rfl | rfl | rfl | rfl <;> rfl

theorem takes_postfixes_call {call : List Piece} (isCall : IsCallTail call) :
    Takes .postfixes call EndsOperand := by
  obtain rfl | ⟨⟨more, rfl⟩, call⟩ := isCall
  · exact takes_postfixes_nil
  · apply takes_of_rule
    intro depth deep ls rest are right
    simp only [rank, List.length_cons] at deep
    have read := call depth (by simp only [rank, List.length_cons]; omega) ls rest are trivial
    have rest' := takes_postfixes_nil depth (by simp only [rank, List.length_nil]; omega) [] rest
      .nil right
    obtain ⟨l, others, rfl, is, -⟩ := exists_cons_of_are are
    obtain ⟨lead, line, rfl⟩ := exists_eq_of_is is
    show (readWithin depth .arguments _).bind (readWithin depth .postfixes) = some rest
    rw [read]
    exact rest'

/-- What follows a word of a path is neither a list of type arguments nor an arrow. -/
theorem notFollowed_of_postfixes {segments : List (String × Piece)} (path : IsPath segments)
    {call : List Piece} (isCall : IsCallTail call) {ls rest : List Lexeme}
    (are : Lexeme.Are ls (pathPieces segments ++ call)) (right : EndsOperand rest) :
    NotFollowed ["<", "=>"] (ls ++ rest) := by
  cases segments with
  | nil =>
    obtain rfl | ⟨⟨more, rfl⟩, -⟩ := isCall
    · rw [eq_nil_of_are are]
      exact notFollowed_of_followed right (by decide)
    · exact notFollowed_of_symbol (by decide) are
  | cons x segments =>
    have symbol := (path x List.mem_cons_self).1
    rw [List.mem_pair] at symbol
    have other : x.1 ∉ ["<", "=>"] := by rcases symbol with h | h <;> rw [h] <;> decide
    exact notFollowed_of_symbol other are

/-- What follows the first word of a path: further names, and perhaps a call. -/
theorem takes_postfixes {segments : List (String × Piece)} (path : IsPath segments)
    {call : List Piece} (isCall : IsCallTail call) :
    Takes .postfixes (pathPieces segments ++ call) EndsOperand := by
  induction segments with
  | nil => exact takes_postfixes_call isCall
  | cons x segments ih =>
    obtain ⟨s, w⟩ := x
    obtain ⟨⟨symbol, word⟩, path⟩ := List.forall_mem_cons.1 path
    apply takes_of_rule
    intro depth deep ls rest are right
    have pieces : pathPieces ((s, w) :: segments) ++ call =
      symbolPiece s :: w :: (pathPieces segments ++ call) := rfl
    rw [pieces] at deep are
    simp only [rank, List.length_cons] at deep
    obtain ⟨l, others, rfl, is, are⟩ := exists_cons_of_are are
    obtain ⟨m, more, rfl, isWord, tail⟩ := exists_cons_of_are are
    obtain ⟨lead, line, rfl⟩ := exists_eq_of_is is
    have later := ih path depth (by simp only [rank]; omega) more rest tail right
    have noArguments : NotFollowed ["<"] (more ++ rest) :=
      notFollowed_mono (notFollowed_of_postfixes path isCall tail right) (by decide)
    have step : (anyWord >=> callArguments (readWithin depth) >=> readWithin depth .postfixes)
        (m :: (more ++ rest)) = some rest := by
      have first : anyWord (m :: (more ++ rest)) = some (more ++ rest) := by
        simpa [anyWord, one, isWord.kind] using word
      show (anyWord (m :: (more ++ rest))).bind _ = some rest
      rw [first]
      show (callArguments (readWithin depth) (more ++ rest)).bind _ = some rest
      rw [callArguments_eq noArguments]
      exact later
    rw [rule]
    rw [List.mem_pair] at symbol
    rcases symbol with rfl | rfl <;> exact step

/-- No piece is a colon. -/
def HasNoColon (ps : List Piece) : Prop :=
  ∀ p ∈ ps, p.kind = .symbol → p.text ≠ [':']

theorem hasNoColon_nil : HasNoColon [] := by
  intro p mem
  cases mem

theorem hasNoColon_cons {p : Piece} {ps : List Piece} (first : p.kind = .symbol → p.text ≠ [':'])
    (others : HasNoColon ps) : HasNoColon (p :: ps) :=
  List.forall_mem_cons.2 ⟨first, others⟩

theorem HasNoColon.append {ps qs : List Piece} (first : HasNoColon ps) (second : HasNoColon qs) :
    HasNoColon (ps ++ qs) := by
  intro p mem
  rcases List.mem_append.1 mem with mem | mem
  · exact first p mem
  · exact second p mem

/-- Pieces that are an operand wherever one stands. -/
structure IsOperand (ps : List Piece) : Prop where
  takes : Takes .operand ps EndsOperand
  begins : ∃ p more, ps = p :: more ∧ p.kind ≠ .symbol ∧
    ∀ l : Lexeme, l.Is p → l.isAnyOf ["out", "ref", "in"] = false
  unnamed : HasNoColon ps

/-- An operand of one piece, behind which nothing of it stands. -/
theorem isOperand_of_piece {p : Piece} (colon : p.kind ≠ .symbol)
    (begins : ∀ l : Lexeme, l.Is p → l.isAnyOf ["out", "ref", "in"] = false)
    (goes : ∀ depth (l : Lexeme) rest, l.Is p →
      operandRule (readWithin depth) (l :: rest) = readWithin depth .postfixes rest) :
    IsOperand [p] where
  takes := by
    apply takes_of_rule
    intro depth deep ls rest are right
    obtain ⟨l, more, rfl, is, others⟩ := exists_cons_of_are are
    simp only [rank, List.length_cons, List.length_nil] at deep
    rw [rule, List.cons_append, goes depth l _ is]
    exact takes_postfixes_nil depth (by simp only [rank, List.length_nil]; omega) more rest
      others right
  begins := ⟨p, [], rfl, colon, begins⟩
  unnamed := hasNoColon_cons (fun symbol => absurd symbol colon) hasNoColon_nil

theorem isOperand_text (cs : List Char) : IsOperand [textPiece cs] := by
  apply isOperand_of_piece (by simp [textPiece])
  · intro l is
    simp [Lexeme.isAnyOf, is.kind, textPiece]
  · intro depth l rest is
    simp only [operandRule, is.kind, textPiece]

theorem isOperand_number (n : Nat) : IsOperand [numberPiece n] := by
  apply isOperand_of_piece (by simp [numberPiece])
  · intro l is
    simp [Lexeme.isAnyOf, is.kind, numberPiece]
  · intro depth l rest is
    simp only [operandRule, is.kind, numberPiece]

/-- The words for fixed values are operands. -/
theorem isOperand_constant {w : String} (listed : w ∈ ["true", "null"]) :
    IsOperand [wordPiece w.toList] := by
  apply isOperand_of_piece (by simp [wordPiece])
  · intro l is
    rw [isAnyOf_of_is is, decide_eq_false_iff_not]
    rw [List.mem_pair] at listed
    rcases listed with rfl | rfl <;> decide
  · intro depth l rest is
    have constant : l.isAnyOf ["this", "base", "true", "false", "null"] = true := by
      rw [isAnyOf_of_is is, decide_eq_true_iff]
      rw [List.mem_pair] at listed
      rcases listed with rfl | rfl <;> decide
    simp only [operandRule, is.kind, wordPiece, wordOperandRule, constant, if_true]

/-- A free word begins an operand that goes on like a path. -/
theorem wordOperandRule_of_isFree {depth : Nat} {p : Piece} {l : Lexeme} (free : IsFree p)
    (is : l.Is p) {rest : List Lexeme} (noArguments : NotFollowed ["<", "=>"] rest) :
    wordOperandRule (readWithin depth) l rest = readWithin depth .postfixes rest := by
  have word {w : String} (known : w ∈ meaningfulWords) : l.isWord w = false :=
    isWord_of_isFree free is known
  have anyOf {ws : List String} (known : ∀ w ∈ ws, w ∈ meaningfulWords) : l.isAnyOf ws = false :=
    isAnyOf_of_isFree free is known
  have reserved := isReserved_of_isFree free is
  have arrow : ahead (Lexeme.isSymbol "=>") rest = false :=
    notFollowed_of_mem noArguments (by decide)
  have named : callArguments (readWithin depth) rest = some rest :=
    callArguments_eq (notFollowed_mono noArguments (by decide))
  unfold wordOperandRule
  simp (disch := decide +kernel) only [word, anyOf, reserved, arrow, Bool.false_eq_true, if_false,
    Bool.false_and]
  show (callArguments (readWithin depth) rest).bind _ = _
  rw [named]
  rfl

/-- A free word, further names and perhaps a call are an operand. -/
theorem isOperand_path {p : Piece} (free : IsFree p) {segments : List (String × Piece)}
    (path : IsPath segments) {call : List Piece} (isCall : IsCallTail call)
    (unnamed : HasNoColon call) : IsOperand (p :: (pathPieces segments ++ call)) where
  takes := by
    apply takes_of_rule
    intro depth deep ls rest are right
    obtain ⟨l, more, rfl, is, others⟩ := exists_cons_of_are are
    simp only [rank, List.length_cons] at deep
    have noArguments := notFollowed_of_postfixes path isCall others right
    rw [rule, List.cons_append]
    simp only [operandRule, is.kind, free.word]
    rw [wordOperandRule_of_isFree free is noArguments]
    exact takes_postfixes path isCall depth (by simp only [rank]; omega) more rest others right
  begins := ⟨p, _, rfl, by simp [free.word], fun l is => isAnyOf_of_isFree free is (by decide)⟩
  unnamed := by
    refine hasNoColon_cons (fun symbol => ?_) (HasNoColon.append ?_ unnamed)
    · rw [free.word] at symbol
      cases symbol
    · intro q mem symbol
      obtain ⟨x, inside, mem⟩ := List.mem_flatMap.1 mem
      obtain ⟨listed, word⟩ := path x inside
      rcases List.mem_pair.1 mem with rfl | rfl
      · rw [List.mem_pair] at listed
        rcases listed with h | h <;> rw [h] <;> decide
      · rw [word] at symbol
        cases symbol

/-- A free word is an operand of its own. -/
theorem isOperand_word {p : Piece} (free : IsFree p) :
    IsOperand [p] :=
  isOperand_path free (by simp [IsPath] : IsPath []) (.inl rfl) hasNoColon_nil

/-- Further operands, each with the symbol before it. -/
inductive IsChain : List Piece → Prop where
  | nil : IsChain []
  | cons {s : String} {ps qs : List Piece} (symbol : s ∈ ["!=", "&&", "??", "="])
      (operand : IsOperand ps) (later : IsChain qs) : IsChain (symbolPiece s :: (ps ++ qs))

theorem IsChain.endsOperand {ps : List Piece} (chain : IsChain ps) {ls rest : List Lexeme}
    (are : Lexeme.Are ls ps) (right : EndsExpression rest) : EndsOperand (ls ++ rest) := by
  cases chain with
  | nil =>
    rw [eq_nil_of_are are]
    exact followed_mono right (by decide)
  | @cons s _ _ symbol =>
    have listed : ∀ t ∈ ["!=", "&&", "??", "="], t ∈ [")", ",", ";", "!=", "&&", "??", "="] := by
      decide
    exact followed_of_symbol (listed s symbol) are

theorem IsChain.takes {ps : List Piece} (chain : IsChain ps) :
    Takes .operators ps EndsExpression := by
  induction chain with
  | nil =>
    apply takes_of_rule
    intro depth _ ls rest are right
    rw [eq_nil_of_are are, List.nil_append, rule]
    obtain ⟨t, mem, lead, line, more, rfl⟩ := exists_of_followed right
    simp only [List.mem_cons, List.not_mem_nil, or_false] at mem
    rcases mem with rfl | rfl | rfl <;> rfl
  | @cons s ps qs symbol operand later ih =>
    apply takes_of_rule
    intro depth deep ls rest are right
    simp only [rank, List.length_cons, List.length_append] at deep
    have both : Reads (readWithin depth .operand >=> readWithin depth .operators) (ps ++ qs)
        EndsExpression :=
      (operand.takes depth (by simp only [rank]; omega)).then
        (ih depth (by simp only [rank]; omega)) fun _ _ are right => later.endsOperand are right
    obtain ⟨l, more, rfl, is, others⟩ := exists_cons_of_are are
    obtain ⟨lead, line, rfl⟩ := exists_eq_of_is is
    have read := both more rest others right
    rw [rule]
    simp only [List.mem_cons, List.not_mem_nil, or_false] at symbol
    rcases symbol with rfl | rfl | rfl | rfl <;> exact read

/-! ## Expressions -/

/-- Pieces that are an expression wherever one stands. -/
structure IsExpression (ps : List Piece) : Prop where
  takes : Takes .expression ps EndsExpression
  begins : ∃ p more, ps = p :: more ∧ p.kind ≠ .symbol ∧
    ∀ l : Lexeme, l.Is p → l.isAnyOf ["out", "ref", "in"] = false
  unnamed : HasNoColon ps

theorem IsChain.unnamed {ps : List Piece} (chain : IsChain ps) : HasNoColon ps := by
  induction chain with
  | nil => exact hasNoColon_nil
  | @cons s ps qs symbol operand later ih =>
    have other : ∀ t ∈ ["!=", "&&", "??", "="], t.toList ≠ [':'] := by decide
    exact hasNoColon_cons (fun _ => other s symbol) (operand.unnamed.append ih)

/-- An operand and a chain behind it are an expression. -/
theorem isExpression_append {ps qs : List Piece} (operand : IsOperand ps) (chain : IsChain qs) :
    IsExpression (ps ++ qs) where
  takes := by
    apply takes_of_rule
    intro depth deep
    simp only [rank, List.length_append] at deep
    exact (operand.takes depth (by simp only [rank]; omega)).then
      (chain.takes depth (by simp only [rank]; omega)) fun _ _ are right =>
        chain.endsOperand are right
  begins := by
    obtain ⟨p, more, rfl, begins⟩ := operand.begins
    exact ⟨p, more ++ qs, rfl, begins⟩
  unnamed := operand.unnamed.append chain.unnamed

theorem IsOperand.isExpression {ps : List Piece} (operand : IsOperand ps) : IsExpression ps := by
  have whole := isExpression_append operand .nil
  rwa [List.append_nil] at whole

/-- No colon lies ahead of pieces that are none. -/
theorem HasNoColon.notFollowed {ps : List Piece} (h : HasNoColon ps) {ls rest : List Lexeme}
    (are : Lexeme.Are ls ps) (right : NotFollowed [":"] rest) :
    ahead (Lexeme.isSymbol ":") (ls ++ rest) = false := by
  cases ps with
  | nil =>
    rw [eq_nil_of_are are, List.nil_append]
    exact notFollowed_of_mem right (List.mem_singleton_self _)
  | cons q more =>
    refine ahead_of_are (fun m is => ?_) are
    rw [Lexeme.isSymbol, Bool.and_eq_false_iff, beq_eq_false_iff_ne, beq_eq_false_iff_ne, is.kind,
      is.text]
    by_cases symbol : q.kind = .symbol
    · exact Or.inr (h q List.mem_cons_self symbol)
    · exact Or.inl symbol

/-- No name with a colon stands in front of an expression. -/
theorem IsExpression.refuses_nameColon {ps : List Piece} (h : IsExpression ps)
    {ls rest : List Lexeme} (are : Lexeme.Are ls ps) (right : EndsExpression rest) :
    nameColon (ls ++ rest) = none := by
  obtain ⟨p, more, rfl, -⟩ := h.begins
  obtain ⟨-, unnamed⟩ := List.forall_mem_cons.1 h.unnamed
  obtain ⟨l, others, rfl, is, tail⟩ := exists_cons_of_are are
  have colon := HasNoColon.notFollowed unnamed tail (notFollowed_of_followed right (by decide))
  have refused : symbol ":" (others ++ rest) = none :=
    refuses_one (fun _ other => other) (others ++ rest) colon
  show (anyWord (l :: (others ++ rest))).bind (symbol ":") = none
  simp only [anyWord, one]
  split
  · exact refused
  · rfl

/-- Where an expression lies ahead, there is no name with a colon to skip. -/
theorem IsExpression.maybe_nameColon {ps : List Piece} (h : IsExpression ps)
    {ls rest : List Lexeme} (are : Lexeme.Are ls ps) (right : EndsExpression rest) :
    maybe nameColon (ls ++ rest) = some (ls ++ rest) := by
  rw [maybe, h.refuses_nameColon are right, Option.getD_none]

/-! ## Arguments -/

theorem IsExpression.takes_attributeArgument {ps : List Piece} (h : IsExpression ps) :
    Takes .attributeArgument ps EndsItem := by
  apply takes_of_rule
  intro depth deep ls rest are right
  have ends : EndsExpression rest := followed_mono right (by decide)
  show (maybe nameColon (ls ++ rest)).bind (readWithin depth .expression) = some rest
  rw [h.maybe_nameColon are ends]
  exact h.takes depth (by simp only [rank] at deep ⊢; omega) ls rest are ends

theorem IsExpression.takes_argument {ps : List Piece} (h : IsExpression ps) :
    Takes .argument ps EndsItem := by
  apply takes_of_rule
  intro depth deep ls rest are right
  have ends : EndsExpression rest := followed_mono right (by decide)
  have read := h.takes depth (by simp only [rank] at deep ⊢; omega) ls rest are ends
  have passed : ahead (Lexeme.isAnyOf ["out", "ref", "in"]) (ls ++ rest) = false := by
    obtain ⟨p, more, rfl, -, begins⟩ := h.begins
    exact ahead_of_are begins are
  simp only [rule, argumentRule, Bind.kleisliRight, h.maybe_nameColon are ends, passed,
    Option.bind_eq_bind, Option.bind_some, Bool.false_eq_true, if_false]
  exact read

/-- A call with expressions as arguments. -/
theorem isCallTail_arguments {items : List (List Piece)} (nonempty : items ≠ [])
    (each : ∀ ps ∈ items, IsExpression ps) :
    IsCallTail (symbolPiece "(" :: (commaPieces items ++ [symbolPiece ")"])) :=
  .inr ⟨⟨_, rfl⟩, takes_arguments (takes_commaList nonempty fun ps mem =>
    (each ps mem).takes_argument)⟩

theorem hasNoColon_commaPieces {items : List (List Piece)}
    (each : ∀ ps ∈ items, HasNoColon ps) : HasNoColon (commaPieces items) := by
  induction items with
  | nil => exact hasNoColon_nil
  | cons ps items ih =>
    obtain ⟨first, each⟩ := List.forall_mem_cons.1 each
    cases items with
    | nil => exact first
    | cons qs items => exact first.append (hasNoColon_cons (fun _ => by decide) (ih each))

end CallSiteIds.Source.Grammar
