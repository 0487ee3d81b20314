import CallSiteIds.Proofs.Source.TextLiterals
import CallSiteIds.Source.Unit

/-!
# The tokens of a body

The body of a routine is text, and what it does is settled by the tokens of that text: names,
text literals, the method that is called, and a few fixed marks.  The method is written by the
host and taken as it stands; everything else is cut by the rules for lexemes.  A body spells
the tokens that one expects (`spellsLines_body`), whatever blanks stand between them.

The argument goes from the end of the text to its front: a piece that is put in front of a text
adds its tokens, as long as the text does not go on with the last lexeme of the piece.
-/

set_option autoImplicit false

namespace CallSiteIds.Source

open Text (startsWord continuesWord continuesWord_of_startsWord)

/-! ## Tokens -/

/-- A fixed part of a body. -/
inductive Mark where
  | ifWord
  | returnWord
  | nullWord
  | opens
  | closes
  | begins
  | ends
  | comma
  | semicolon
  | differs
  | also
  | orElse
deriving DecidableEq, Repr

namespace Mark

/-- A mark as it is written. -/
def text : Mark → List Char
  | ifWord => ['i', 'f']
  | returnWord => ['r', 'e', 't', 'u', 'r', 'n']
  | nullWord => ['n', 'u', 'l', 'l']
  | opens => ['(']
  | closes => [')']
  | begins => ['\x7b']
  | ends => ['\x7d']
  | comma => [',']
  | semicolon => [';']
  | differs => ['!', '=']
  | also => ['&', '&']
  | orElse => ['?', '?']

def all : List Mark :=
  [ifWord, returnWord, nullWord, opens, closes, begins, ends, comma, semicolon, differs, also,
    orElse]

/-- The mark that is written in a way. -/
def ofText? (cs : List Char) : Option Mark :=
  all.find? fun m => m.text == cs

theorem ofText?_text (m : Mark) : ofText? m.text = some m := by
  cases m <;> decide

theorem text_of_ofText? {cs : List Char} {m : Mark} (h : ofText? cs = some m) :
    m.text = cs := by
  have same := List.find?_some h
  simpa using same

end Mark

/-- A token of a body. -/
inductive Token where
  /-- The method that is called. -/
  | callee
  | mark (mark : Mark)
  | name (name : String)
  | literal (value : String)
deriving DecidableEq, Repr

/-- The token of a lexeme: a mark, or a word that is not reserved, or a regular literal. -/
def Token.ofLexeme? (kind : LexemeKind) (cs : List Char) : Option Token :=
  match Mark.ofText? cs with
  | some m => some (.mark m)
  | none =>
    match kind with
    | .word => if String.ofList cs ∈ reservedWords then none else some (.name (String.ofList cs))
    | .text =>
      match regularValue? cs with
      | some (value, []) => some (.literal (String.ofList value))
      | _ => none
    | _ => none

/-- The token that a text begins with, and the text after it. -/
def nextToken (callee cs : List Char) : Option (Token × List Char) :=
  if callee.isPrefixOf cs then some (.callee, cs.drop callee.length)
  else
    match Lexeme.skipLexeme cs with
    | none => none
    | some (kind, rest) =>
      (Token.ofLexeme? kind (Lexeme.before cs rest)).map fun t => (t, rest)

/-- Cuts a text into tokens; none when some part of it is no token.  `fuel` bounds the number of
blanks and tokens. -/
def tokens (callee : List Char) : Nat → List Char → Option (List Token)
  | 0, _ => none
  | _ + 1, [] => some []
  | fuel + 1, c :: cs =>
    if Lexeme.isSpace c then tokens callee fuel cs
    else
      match nextToken callee (c :: cs) with
      | none => none
      | some (t, rest) => (tokens callee fuel rest).map (t :: ·)

/-- A text spells tokens. -/
inductive Spells (callee : List Char) : List Char → List Token → Prop where
  | nil : Spells callee [] []
  | blank {c : Char} {cs : List Char} {ts : List Token} (space : Lexeme.isSpace c = true)
      (later : Spells callee cs ts) : Spells callee (c :: cs) ts
  | token {c : Char} {cs rest : List Char} {t : Token} {ts : List Token}
      (visible : Lexeme.isSpace c = false) (next : nextToken callee (c :: cs) = some (t, rest))
      (shorter : rest.length ≤ cs.length) (later : Spells callee rest ts) :
      Spells callee (c :: cs) (t :: ts)

theorem tokens_of_spells {callee cs : List Char} {ts : List Token} (h : Spells callee cs ts)
    {fuel : Nat} (enough : cs.length < fuel) : tokens callee fuel cs = some ts := by
  induction h generalizing fuel with
  | nil =>
    obtain ⟨fuel, rfl⟩ := Nat.exists_eq_add_of_lt enough
    simp [tokens]
  | blank space later ih =>
    rw [List.length_cons] at enough
    obtain ⟨fuel, rfl⟩ : ∃ n, fuel = n + 1 := ⟨fuel - 1, by omega⟩
    rw [tokens, if_pos space]
    exact ih (by omega)
  | token visible next shorter later ih =>
    rw [List.length_cons] at enough
    obtain ⟨fuel, rfl⟩ : ∃ n, fuel = n + 1 := ⟨fuel - 1, by omega⟩
    have enough : _ < fuel := Nat.lt_of_le_of_lt shorter (by omega)
    rw [tokens, if_neg (by simp [visible]), next]
    simp only [ih enough, Option.map_some]

/-! ## Names -/

/-- An identifier, with or without an at sign in front. -/
def isName : List Char → Bool
  | '@' :: c :: cs => startsWord c && cs.all continuesWord
  | c :: cs => startsWord c && cs.all continuesWord
  | [] => false

/-- A character of a name. -/
def isNamePart (c : Char) : Bool :=
  continuesWord c || c == '@'

/-- The characters that may follow a name, a word or a literal in a body. -/
def breaks : List Char :=
  [' ', '\n', '(', ')', ',', ';']

/-- A text does not go on with the lexeme in front of it. -/
def Breaks (cs : List Char) : Prop :=
  ∀ c ∈ cs.head?, c ∈ breaks

theorem breaks_cons {c : Char} (h : c ∈ breaks) (cs : List Char) : Breaks (c :: cs) := by
  intro d mem
  injection mem with mem
  exact mem ▸ h

theorem Breaks.standsApart {cs : List Char} (h : Breaks cs) : StandsApart cs := by
  have each : ∀ c ∈ breaks, c ≠ '"' ∧ c ≠ 'u' ∧ c ≠ 'U' := by simp [breaks]
  intro c mem
  exact each c (h c mem)

theorem isNamePart_of_startsWord {c : Char} (h : startsWord c = true) : isNamePart c = true := by
  simp [isNamePart, continuesWord_of_startsWord h]

/-- A name begins with a character that begins a word, after an at sign or at once. -/
theorem exists_of_isName {cs : List Char} (h : isName cs = true) :
    ∃ c rest, startsWord c = true ∧ (∀ d ∈ rest, continuesWord d = true) ∧
      (cs = c :: rest ∨ cs = '@' :: c :: rest) := by
  unfold isName at h
  split at h
  · rename_i c rest
    simp only [Bool.and_eq_true, List.all_eq_true] at h
    exact ⟨c, rest, h.1, h.2, Or.inr rfl⟩
  · rename_i c rest _
    simp only [Bool.and_eq_true, List.all_eq_true] at h
    exact ⟨c, rest, h.1, h.2, Or.inl rfl⟩
  · cases h

theorem isNamePart_of_mem {cs : List Char} (h : isName cs = true) :
    ∀ c ∈ cs, isNamePart c = true := by
  obtain ⟨c, rest, starts, continues, same⟩ := exists_of_isName h
  have first := isNamePart_of_startsWord starts
  have others : ∀ d ∈ rest, isNamePart d = true := by
    intro d mem
    simp [isNamePart, continues d mem]
  rcases same with rfl | rfl
  · exact List.forall_mem_cons.2 ⟨first, others⟩
  · exact List.forall_mem_cons.2 ⟨rfl, List.forall_mem_cons.2 ⟨first, others⟩⟩

/-- The blanks between lexemes, as numbers. -/
def spaceNumbers : List Nat :=
  List.range' 0x09 5 ++ [0x20, 0x85, 0xa0, 0x1680] ++ List.range' 0x2000 11 ++
    [0x2028, 0x2029, 0x202f, 0x205f, 0x3000, 0xfeff]

theorem toNat_mem_spaceNumbers {c : Char} (h : Lexeme.isSpace c = true) :
    c.toNat ∈ spaceNumbers := by
  simp only [Lexeme.isSpace, Text.isWhiteSpace, Bool.or_eq_true, Bool.and_eq_true,
    decide_eq_true_eq, beq_iff_eq] at h
  simp only [spaceNumbers, List.mem_append, List.mem_range'_1, List.mem_cons, List.not_mem_nil,
    or_false]
  omega

/-- What begins a word is no blank. -/
theorem not_isSpace_of_startsWord {c : Char} (h : startsWord c = true) :
    Lexeme.isSpace c = false := by
  have each : ∀ n ∈ spaceNumbers, startsWord (Char.ofNat n) = false := by decide +kernel
  cases space : Lexeme.isSpace c with
  | false => rfl
  | true =>
    have listed := each c.toNat (toNat_mem_spaceNumbers space)
    rw [Char.ofNat_toNat, h] at listed
    cases listed

/-! ## The method that is called -/

/-- The method that is called, as it is written: it begins with a word that a colon or a point
follows. -/
def IsCallee (cs : List Char) : Prop :=
  ∃ rest, cs = "global:".toList ++ rest ∨ cs = "@this.".toList ++ rest

theorem isCallee_calleeText (targetType methodName : String) (isStatic : Bool) :
    IsCallee (calleeText targetType methodName isStatic).toList := by
  cases isStatic with
  | false => exact ⟨methodName.toList, Or.inr (by simp [calleeText, receiverName])⟩
  | true =>
    have whole : ∃ rest, (globalType targetType).toList = "global::".toList ++ rest := by
      unfold globalType
      split
      · rename_i front
        obtain ⟨rest, same⟩ := List.isPrefixOf_iff_prefix.1 front
        exact ⟨rest, same.symm⟩
      · exact ⟨targetType.toList, by simp⟩
    obtain ⟨rest, same⟩ := whole
    refine ⟨':' :: (rest ++ ('.' :: methodName.toList)), Or.inl ?_⟩
    simp [calleeText, same]

/-- A text that goes on otherwise after its first word does not begin with the method. -/
theorem not_isPrefixOf_of_isCallee {callee : List Char} (h : IsCallee callee)
    {word rest : List Char} (parts : ∀ c ∈ word, isNamePart c = true)
    (stops : ∀ c ∈ rest.head?, isNamePart c = false ∧ c ≠ ':' ∧ c ≠ '.') :
    callee.isPrefixOf (word ++ rest) = false := by
  rw [Bool.eq_false_iff]
  intro front
  obtain ⟨tail, same⟩ := List.isPrefixOf_iff_prefix.1 front
  -- After the characters of a name one text goes on with a colon or a point, the other does not.
  have after := congrArg (List.dropWhile isNamePart) same
  have back : (word ++ rest).dropWhile isNamePart = rest := by
    rw [List.dropWhile_append_of_pos parts]
    cases rest with
    | nil => rfl
    | cons c rest => exact List.dropWhile_cons_of_neg (by simp [(stops c rfl).1])
  rw [back] at after
  obtain ⟨more, rfl | rfl⟩ := h
  · have colon : ∀ cs, (("global:".toList ++ more) ++ cs).dropWhile isNamePart =
        ':' :: (more ++ cs) := fun _ => rfl
    rw [colon] at after
    exact (stops ':' (by rw [← after]; rfl)).2.1 rfl
  · have point : ∀ cs, (("@this.".toList ++ more) ++ cs).dropWhile isNamePart =
        '.' :: (more ++ cs) := fun _ => rfl
    rw [point] at after
    exact (stops '.' (by rw [← after]; rfl)).2.2 rfl

/-! ## Single tokens -/

theorem before_append (cs rest : List Char) : Lexeme.before (cs ++ rest) rest = cs := by
  unfold Lexeme.before
  rw [List.length_append, Nat.add_sub_cancel, List.take_left']
  rfl

/-- A name is cut as a word when the text goes on otherwise. -/
theorem skipLexeme_name {cs rest : List Char} (h : isName cs = true)
    (stops : ∀ c ∈ rest.head?, continuesWord c = false) :
    Lexeme.skipLexeme (cs ++ rest) = some (.word, rest) := by
  obtain ⟨c, more, starts, continues, same⟩ := exists_of_isName h
  have cut : (more ++ rest).dropWhile continuesWord = rest := by
    rw [List.dropWhile_append_of_pos continues]
    cases rest with
    | nil => rfl
    | cons d rest => exact List.dropWhile_cons_of_neg (by simp [stops d rfl])
  -- No other lexeme begins with a character that begins a word.
  have ne {d : Char} (other : startsWord d = false) : c ≠ d := by
    rintro rfl
    rw [starts] at other
    cases other
  have quote := ne (d := '"') (by decide)
  have apostrophe := ne (d := '\'') (by decide)
  have dollar := ne (d := '$') (by decide)
  have at' := ne (d := '@') (by decide)
  have hash := ne (d := '#') (by decide)
  rcases same with rfl | rfl
  · simp [Lexeme.skipLexeme, *]
  · simp [Lexeme.skipLexeme, *]

theorem ofLexeme?_name {name : String} (h : isName name.toList = true)
    (free : name ∉ reservedWords) : Token.ofLexeme? .word name.toList = some (.name name) := by
  have unmarked : Mark.ofText? name.toList = none := by
    cases marked : Mark.ofText? name.toList with
    | none => rfl
    | some m =>
      exfalso
      have written := Mark.text_of_ofText? marked
      -- A mark is a reserved word or begins with no character of a name.
      have kinds : String.ofList m.text ∈ reservedWords ∨ isName m.text = false := by
        cases m <;> decide +kernel
      rw [written, String.ofList_toList, h] at kinds
      rcases kinds with reserved | symbol
      · exact free reserved
      · cases symbol
  unfold Token.ofLexeme?
  simp only [unmarked, String.ofList_toList, if_neg free]

theorem ofLexeme?_literal (value : String) :
    Token.ofLexeme? .text (regularLiteral value.toList) = some (.literal value) := by
  have unmarked : Mark.ofText? (regularLiteral value.toList) = none := by
    cases marked : Mark.ofText? (regularLiteral value.toList) with
    | none => rfl
    | some m =>
      exfalso
      have written := congrArg List.head? (Mark.text_of_ofText? marked)
      cases m <;> cases written
  have whole := regularValue?_regularLiteral value.toList []
  rw [List.append_nil] at whole
  unfold Token.ofLexeme?
  simp only [unmarked, whole, String.ofList_toList]

/-- A mark that is no word is cut as a symbol. -/
theorem skipLexeme_mark {m : Mark} (symbol : isName m.text = false) {rest : List Char}
    (apart : m = .opens ∨ Breaks rest) :
    Lexeme.skipLexeme (m.text ++ rest) = some (.symbol, rest) := by
  cases m with
  | ifWord => exact absurd symbol (by decide)
  | returnWord => exact absurd symbol (by decide)
  | nullWord => exact absurd symbol (by decide)
  | orElse =>
    -- With an equals sign it would be another symbol.
    have long : ['='].isPrefixOf rest = false := by
      have each : ∀ c ∈ breaks, '=' ≠ c := by simp [breaks]
      cases rest with
      | nil => rfl
      | cons c rest =>
        rcases apart with same | apart
        · cases same
        · simp [List.isPrefixOf, each c (apart c rfl)]
    have noWord : startsWord '?' = false := by decide
    simp [Mark.text, Lexeme.skipLexeme, Lexeme.skipSymbol, Lexeme.longSymbols, long, noWord]
  | opens => rfl
  | closes => rfl
  | begins => rfl
  | ends => rfl
  | comma => rfl
  | semicolon => rfl
  | differs => rfl
  | also => rfl

section Spelling

variable {callee : List Char} {rest : List Char} {ts : List Token}

/-- A lexeme that does not begin like the method spells its token. -/
theorem spells_lexeme {cs : List Char} {kind : LexemeKind} {t : Token}
    (visible : ∀ c ∈ cs.head?, Lexeme.isSpace c = false) (nonempty : cs ≠ [])
    (other : callee.isPrefixOf (cs ++ rest) = false)
    (cut : Lexeme.skipLexeme (cs ++ rest) = some (kind, rest))
    (token : Token.ofLexeme? kind cs = some t) (later : Spells callee rest ts) :
    Spells callee (cs ++ rest) (t :: ts) := by
  have next : nextToken callee (cs ++ rest) = some (t, rest) := by
    unfold nextToken
    rw [if_neg (by simp [other]), cut]
    simp only [before_append, token, Option.map_some]
  cases cs with
  | nil => exact absurd rfl nonempty
  | cons c cs => exact .token (visible c rfl) next (by simp) later

theorem spells_space (later : Spells callee rest ts) : Spells callee (' ' :: rest) ts :=
  .blank (by decide) later

theorem spells_feed (later : Spells callee rest ts) : Spells callee ('\n' :: rest) ts :=
  .blank (by decide) later

variable (h : IsCallee callee)

include h

theorem spells_callee (later : Spells callee rest ts) :
    Spells callee (callee ++ rest) (.callee :: ts) := by
  have next : nextToken callee (callee ++ rest) = some (.callee, rest) := by
    unfold nextToken
    rw [if_pos (List.isPrefixOf_iff_prefix.2 (List.prefix_append _ _)), List.drop_left']
    rfl
  obtain ⟨more, rfl | rfl⟩ := h
  · exact .token (by decide) next (by simp; omega) later
  · exact .token (by decide) next (by simp; omega) later

/-- A word is cut as such when a break follows it. -/
theorem spells_word {cs : List Char} {t : Token} (named : isName cs = true)
    (token : Token.ofLexeme? .word cs = some t) (apart : Breaks rest)
    (later : Spells callee rest ts) : Spells callee (cs ++ rest) (t :: ts) := by
  have stops : ∀ c ∈ breaks, continuesWord c = false ∧ isNamePart c = false ∧ c ≠ ':' ∧ c ≠ '.' := by
    intro c mem
    simp only [breaks, List.mem_cons, List.not_mem_nil, or_false] at mem
    rcases mem with rfl | rfl | rfl | rfl | rfl | rfl <;> decide
  refine spells_lexeme ?_ ?_ ?_ ?_ token later
  · obtain ⟨c, more, starts, -, rfl | rfl⟩ := exists_of_isName named
    · intro d mem
      injection mem with mem
      exact mem ▸ not_isSpace_of_startsWord starts
    · intro d mem
      injection mem with mem
      exact mem ▸ by decide
  · rintro rfl
    cases named
  · apply not_isPrefixOf_of_isCallee h (isNamePart_of_mem named)
    intro c mem
    exact (stops c (apart c mem)).2
  · apply skipLexeme_name named
    intro c mem
    exact (stops c (apart c mem)).1

theorem spells_name {name : String} (named : isName name.toList = true)
    (free : name ∉ reservedWords) (apart : Breaks rest) (later : Spells callee rest ts) :
    Spells callee (name.toList ++ rest) (.name name :: ts) :=
  spells_word h named (ofLexeme?_name named free) apart later

theorem spells_literal (value : String) (apart : Breaks rest) (later : Spells callee rest ts) :
    Spells callee (regularLiteral value.toList ++ rest) (.literal value :: ts) := by
  refine spells_lexeme ?_ ?_ ?_ (skipLexeme_regularLiteral _ apart.standsApart)
    (ofLexeme?_literal value) later
  · intro c mem
    injection mem with mem
    exact mem ▸ by decide
  · simp [regularLiteral]
  · apply not_isPrefixOf_of_isCallee h (by simp : ∀ c ∈ [], isNamePart c = true)
    intro c mem
    injection mem with mem
    exact mem ▸ by decide

/-- A mark spells itself; a break follows it, except after an opening parenthesis. -/
theorem spells_mark (m : Mark) (apart : m = .opens ∨ Breaks rest)
    (later : Spells callee rest ts) : Spells callee (m.text ++ rest) (.mark m :: ts) := by
  have token (kind : LexemeKind) : Token.ofLexeme? kind m.text = some (.mark m) := by
    unfold Token.ofLexeme?
    rw [Mark.ofText?_text]
  cases word : isName m.text with
  | true =>
    rcases apart with rfl | apart
    · exact absurd word (by decide)
    · exact spells_word h word (token .word) apart later
  | false =>
    have first : ∃ c cs, m.text = c :: cs ∧ Lexeme.isSpace c = false ∧
        isNamePart c = false ∧ c ≠ ':' ∧ c ≠ '.' := by
      cases m
      all_goals first
        | exact ⟨_, _, rfl, by decide⟩
        | exact absurd word (by decide)
    obtain ⟨c, cs, text, visible, stops⟩ := first
    refine spells_lexeme ?_ ?_ ?_ (skipLexeme_mark word apart) (token .symbol) later
    · rw [text]
      intro d mem
      injection mem with mem
      exact mem ▸ visible
    · rw [text]
      exact List.cons_ne_nil _ _
    · apply not_isPrefixOf_of_isCallee h (by simp : ∀ c ∈ [], isNamePart c = true)
      rw [text]
      intro d mem
      injection mem with mem
      exact mem ▸ stops

end Spelling

/-! ## The tokens of calls and statements -/

theorem escapeName_not_mem_reservedWords (name : String) : escapeName name ∉ reservedWords := by
  unfold escapeName
  split
  · have each : ∀ word ∈ reservedWords, word.toList.head? ≠ some '@' := by decide +kernel
    intro mem
    have first := each _ mem
    simp at first
  · rename_i free
    exact free

/-- The parameter that an argument passes on. -/
def Argument.name : Argument → String
  | passed name => name
  | orLiteral name _ => name

/-- The name of a parameter is an identifier as it is written. -/
def IsNamed (name : String) : Prop :=
  isName (escapeName name).toList = true

def Argument.tokens : Argument → List Token
  | passed name => [.name (escapeName name)]
  | orLiteral name literal => [.name (escapeName name), .mark .orElse, .literal literal]

/-- The tokens of arguments with commas between them. -/
def argumentTokens : List Argument → List Token
  | [] => []
  | [a] => a.tokens
  | a :: as => a.tokens ++ .mark .comma :: argumentTokens as

def Call.tokens (c : Call) : List Token :=
  .callee :: .mark .opens :: (argumentTokens c.arguments ++ [.mark .closes, .mark .semicolon])

def Statement.tokens : Statement → List Token
  | perform call => call.tokens
  | answer call => .mark .returnWord :: call.tokens
  | leave => [.mark .returnWord, .mark .semicolon]

/-- The call that a statement makes. -/
def Statement.call? : Statement → Option Call
  | perform call => some call
  | answer call => some call
  | leave => none

/-- A statement calls nothing but the given method, and passes on parameters with names. -/
def Statement.IsCall (callee : String) (s : Statement) : Prop :=
  ∀ c ∈ s.call?, c.callee = callee ∧ ∀ a ∈ c.arguments, IsNamed a.name

/-- The tokens of the condition that parameters are present. -/
def guardTokens : List String → List Token
  | [] => []
  | [name] => [.name (escapeName name), .mark .differs, .mark .nullWord]
  | name :: names =>
    .name (escapeName name) :: .mark .differs :: .mark .nullWord :: .mark .also ::
      guardTokens names

def Body.tokens (b : Body) : List Token :=
  [.mark .begins, .mark .ifWord, .mark .opens] ++ guardTokens b.guard ++
    [.mark .closes, .mark .begins] ++ b.guarded.flatMap Statement.tokens ++ [.mark .ends] ++
    b.after.flatMap Statement.tokens ++ [.mark .ends]

section Pieces

variable {callee : String} (h : IsCallee callee.toList) {rest : List Char} {ts : List Token}

include h

theorem spells_argument {a : Argument} (named : IsNamed a.name) (apart : Breaks rest)
    (later : Spells callee.toList rest ts) :
    Spells callee.toList (a.text.toList ++ rest) (a.tokens ++ ts) := by
  have free := escapeName_not_mem_reservedWords a.name
  cases a with
  | passed name => exact spells_name h named free apart later
  | orLiteral name literal =>
    have fallback := spells_literal h literal apart later
    have mark := spells_mark h .orElse (Or.inr (breaks_cons (by decide) _)) (spells_space fallback)
    have whole := spells_name h named free (breaks_cons (by decide) _) (spells_space mark)
    simpa [Argument.text, Argument.tokens, Argument.name, Mark.text] using whole

theorem spells_arguments {as : List Argument} (named : ∀ a ∈ as, IsNamed a.name)
    (apart : Breaks rest) (later : Spells callee.toList rest ts) :
    Spells callee.toList ((", ".intercalate (as.map Argument.text)).toList ++ rest)
      (argumentTokens as ++ ts) := by
  induction as with
  | nil => exact later
  | cons a as ih =>
    have first := named a List.mem_cons_self
    have others := ih fun b mem => named b (List.mem_cons_of_mem _ mem)
    cases as with
    | nil => simpa [argumentTokens] using spells_argument h first apart later
    | cons b as =>
      have comma := spells_mark h .comma (Or.inr (breaks_cons (by decide) _))
        (spells_space others)
      have whole := spells_argument h first (breaks_cons (by decide) _) comma
      rw [List.map_cons, List.map_cons, String.intercalate_cons_cons]
      simpa [argumentTokens, Mark.text] using whole

theorem spells_call {c : Call} (called : c.callee = callee)
    (named : ∀ a ∈ c.arguments, IsNamed a.name) (apart : Breaks rest)
    (later : Spells callee.toList rest ts) :
    Spells callee.toList (c.text.toList ++ rest) (c.tokens ++ ts) := by
  have semicolon := spells_mark h .semicolon (Or.inr apart) later
  have closes := spells_mark h .closes (Or.inr (breaks_cons (by decide) _)) semicolon
  have arguments := spells_arguments h named (breaks_cons (by decide) _) closes
  have opens := spells_mark h .opens (Or.inl rfl) arguments
  have whole := spells_callee h opens
  rw [Call.text, Call.tokens, called]
  simpa [Mark.text] using whole

theorem spells_statement {s : Statement} (call : s.IsCall callee) (apart : Breaks rest)
    (later : Spells callee.toList rest ts) :
    Spells callee.toList (s.text.toList ++ rest) (s.tokens ++ ts) := by
  cases s with
  | perform c =>
    obtain ⟨called, named⟩ := call c rfl
    exact spells_call h called named apart later
  | answer c =>
    obtain ⟨called, named⟩ := call c rfl
    have forwarded := spells_call h called named apart later
    have whole := spells_mark h .returnWord (Or.inr (breaks_cons (by decide) _))
      (spells_space forwarded)
    simpa [Statement.text, Statement.tokens, Mark.text] using whole
  | leave =>
    have semicolon := spells_mark h .semicolon (Or.inr apart) later
    have whole := spells_mark h .returnWord (Or.inr (breaks_cons (by decide) _)) semicolon
    simpa [Statement.text, Statement.tokens, Mark.text] using whole

theorem spells_guard {names : List String} (named : ∀ name ∈ names, IsNamed name)
    (apart : Breaks rest) (later : Spells callee.toList rest ts) :
    Spells callee.toList ((guardText names).toList ++ rest) (guardTokens names ++ ts) := by
  unfold guardText
  have present {name : String} (named : IsNamed name) {rest : List Char} {ts : List Token}
      (apart : Breaks rest) (later : Spells callee.toList rest ts) :
      Spells callee.toList ((escapeName name ++ " != null").toList ++ rest)
        (.name (escapeName name) :: .mark .differs :: .mark .nullWord :: ts) := by
    have nullWord := spells_mark h .nullWord (Or.inr apart) later
    have differs := spells_mark h .differs (Or.inr (breaks_cons (by decide) _))
      (spells_space nullWord)
    have whole := spells_name h named (escapeName_not_mem_reservedWords name)
      (breaks_cons (by decide) _) (spells_space differs)
    simpa [Mark.text] using whole
  induction names with
  | nil => exact later
  | cons name names ih =>
    have first := named name List.mem_cons_self
    have others := ih fun n mem => named n (List.mem_cons_of_mem _ mem)
    cases names with
    | nil => simpa [guardTokens] using present first apart later
    | cons n names =>
      have also := spells_mark h .also (Or.inr (breaks_cons (by decide) _)) (spells_space others)
      have whole := present first (breaks_cons (by decide) _) (spells_space also)
      rw [List.map_cons, List.map_cons, String.intercalate_cons_cons]
      simpa [guardTokens, Mark.text] using whole

end Pieces

/-! ## The lines of a body -/

/-- Lines as text, each with its line feed. -/
def linesText (lines : List String) : List Char :=
  lines.flatMap fun line => line.toList ++ ['\n']

/-- A line spells tokens, whatever the next lines spell. -/
def SpellsLine (callee : String) (line : String) (ts : List Token) : Prop :=
  ∀ rest us, Spells callee.toList rest us →
    Spells callee.toList (line.toList ++ '\n' :: rest) (ts ++ us)

/-- Lines spell tokens, whatever the next lines spell. -/
def SpellsLines (callee : String) (lines : List String) (ts : List Token) : Prop :=
  ∀ rest us, Spells callee.toList rest us →
    Spells callee.toList (linesText lines ++ rest) (ts ++ us)

section Lines

variable {callee : String} {lines lines' : List String} {ts ts' : List Token}

theorem SpellsLine.indent {line : String} (spelled : SpellsLine callee line ts) :
    SpellsLine callee (indent ++ line) ts := by
  intro rest us later
  have whole := spells_space (spells_space (spells_space (spells_space (spelled rest us later))))
  simpa [Source.indent] using whole

/-- The place of a line in its file does not change its tokens. -/
theorem SpellsLine.memberLine {line : String} (spelled : SpellsLine callee line ts) :
    SpellsLine callee (memberLine line) ts := by
  unfold Source.memberLine
  by_cases empty : line.isEmpty = true
  · rw [if_pos empty, ← String.isEmpty_iff.1 empty]
    exact spelled
  · rw [if_neg empty, indentTwice, String.append_assoc]
    exact spelled.indent.indent

theorem spellsLines_nil : SpellsLines callee [] [] := fun _ _ later => later

theorem SpellsLine.single {line : String} (spelled : SpellsLine callee line ts) :
    SpellsLines callee [line] ts := by
  intro rest us later
  simpa [linesText] using spelled rest us later

theorem SpellsLines.append (first : SpellsLines callee lines ts)
    (second : SpellsLines callee lines' ts') :
    SpellsLines callee (lines ++ lines') (ts ++ ts') := by
  intro rest us later
  have whole := first _ _ (second rest us later)
  simpa [linesText] using whole

/-- Statements on lines of their own spell the tokens of the statements. -/
theorem spellsLines_statements (place : String → String) {statements : List Statement}
    (spelled : ∀ s ∈ statements, SpellsLine callee (place s.text) s.tokens) :
    SpellsLines callee (statements.map fun s => place s.text)
      (statements.flatMap Statement.tokens) := by
  induction statements with
  | nil => exact spellsLines_nil
  | cons s statements ih =>
    have first := (spelled s List.mem_cons_self).single
    have others := ih fun t mem => spelled t (List.mem_cons_of_mem _ mem)
    exact first.append others

end Lines

/-- A body calls nothing but the given method, and its names are identifiers. -/
structure Body.IsReadable (callee : String) (b : Body) : Prop where
  method : IsCallee callee.toList
  guard : ∀ name ∈ b.guard, IsNamed name
  guarded : ∀ s ∈ b.guarded, s.IsCall callee
  after : ∀ s ∈ b.after, s.IsCall callee

theorem Forwarded.name_synthesized (f : Forwarded) : f.synthesized.name = f.name := by
  unfold Forwarded.synthesized
  cases f.literal <;> rfl

theorem Routine.isCall_forward {r : Routine} {as : List Argument}
    (named : ∀ a ∈ as, IsNamed a.name) : (r.forward as).IsCall r.callee := by
  unfold Routine.forward
  intro c call
  split at call
  · injection call with call
    exact call ▸ ⟨rfl, named⟩
  · injection call with call
    exact call ▸ ⟨rfl, named⟩

/-- The body of a routine can be read when its parameters have names. -/
theorem Routine.isReadable_body {r : Routine} (method : IsCallee r.callee.toList)
    (named : ∀ f ∈ r.arguments, IsNamed f.name) : r.body.IsReadable r.callee where
  method := method
  guard := by
    intro name mem
    obtain ⟨f, inside, rfl⟩ := List.mem_map.1 mem
    exact named f (List.mem_filter.1 inside).1
  guarded := by
    intro s mem
    rcases List.mem_cons.1 mem with rfl | mem
    · apply isCall_forward
      intro a inside
      obtain ⟨f, listed, rfl⟩ := List.mem_map.1 inside
      exact named f listed
    · split at mem
      · rw [List.mem_singleton.1 mem]
        intro c call
        cases call
      · cases mem
  after := by
    intro s mem
    rw [List.mem_singleton.1 mem]
    apply isCall_forward
    intro a inside
    obtain ⟨f, listed, rfl⟩ := List.mem_map.1 inside
    rw [f.name_synthesized]
    exact named f listed

/-- The lines of a body spell its tokens, also when the lines are placed otherwise. -/
theorem spellsLines_body {callee : String} {b : Body} (readable : b.IsReadable callee)
    {place : String → String}
    (keeps : ∀ line ts, SpellsLine callee line ts → SpellsLine callee (place line) ts) :
    SpellsLines callee (b.lines.map place) b.tokens := by
  have h := readable.method
  have feed (rest : List Char) : Breaks ('\n' :: rest) := breaks_cons (by decide) rest
  have begins : SpellsLine callee "\x7b" [.mark .begins] := by
    intro rest us later
    exact spells_mark h .begins (Or.inr (feed rest)) (spells_feed later)
  have ends : SpellsLine callee "\x7d" [.mark .ends] := by
    intro rest us later
    exact spells_mark h .ends (Or.inr (feed rest)) (spells_feed later)
  have empty : SpellsLine callee "" [] := fun rest us later => spells_feed later
  have test : SpellsLine callee ("if (" ++ guardText b.guard ++ ")")
      ([.mark .ifWord, .mark .opens] ++ guardTokens b.guard ++ [.mark .closes]) := by
    intro rest us later
    have closes := spells_mark h .closes (Or.inr (feed rest)) (spells_feed later)
    have guard := spells_guard h readable.guard (breaks_cons (by decide) _) closes
    have opens := spells_mark h .opens (Or.inl rfl) guard
    have whole := spells_mark h .ifWord (Or.inr (breaks_cons (by decide) _)) (spells_space opens)
    simpa [Mark.text] using whole
  have statement {s : Statement} (call : s.IsCall callee) : SpellsLine callee s.text s.tokens := by
    intro rest us later
    exact spells_statement h call (feed rest) (spells_feed later)
  have placed {line : String} {ts : List Token} (spelled : SpellsLine callee line ts) :
      SpellsLines callee [place line] ts := (keeps line ts spelled).single
  have guarded : SpellsLines callee (b.guarded.map fun s => place (indentTwice s.text))
      (b.guarded.flatMap Statement.tokens) := by
    apply spellsLines_statements fun line => place (indentTwice line)
    intro s mem
    apply keeps
    rw [indentTwice, String.append_assoc]
    exact (statement (readable.guarded s mem)).indent.indent
  have after : SpellsLines callee (b.after.map fun s => place (indent ++ s.text))
      (b.after.flatMap Statement.tokens) := by
    apply spellsLines_statements fun line => place (indent ++ line)
    intro s mem
    apply keeps
    exact (statement (readable.after s mem)).indent
  have whole := (placed begins).append <| (placed test.indent).append <|
    (placed begins.indent).append <| guarded.append <| (placed ends.indent).append <|
    (placed empty).append <| after.append (placed ends)
  simpa [Body.lines, Body.tokens, Function.comp_def, String.append_assoc] using whole

end CallSiteIds.Source
