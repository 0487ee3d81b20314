import CallSiteIds.Proofs.Decimal.Digits
import CallSiteIds.Proofs.Source.BodyTokens
import Mathlib.Data.List.Forall2

/-!
# Pieces of source text

A piece is a lexeme without its place: a kind, a text, and whether it has to stand directly after
the lexeme before.  That a text is cut into pieces is built up from the end of the text to its
front (`Cuts`), with the remaining text present, so that no piece goes on into the next.  Text that
is cut into pieces scans to lexemes of just these kinds and texts, on whatever line it stands
(`exists_scan_of_cuts`).
-/

set_option autoImplicit false

namespace CallSiteIds.Source

open Text (startsWord continuesWord)

/-- A lexeme without its place; a tight one has nothing in front of it. -/
structure Piece where
  kind : LexemeKind
  text : List Char
  tight : Bool
deriving DecidableEq, Repr

/-- A word as a piece. -/
def wordPiece (w : List Char) : Piece :=
  ⟨.word, w, false⟩

/-- A symbol as a piece. -/
def symbolPiece (s : String) : Piece :=
  ⟨.symbol, s.toList, false⟩

/-- A text literal as a piece. -/
def textPiece (cs : List Char) : Piece :=
  ⟨.text, cs, false⟩

/-- A number as a piece. -/
def numberPiece (n : Nat) : Piece :=
  ⟨.number, Decimal.naturalText n, false⟩

/-- A lexeme is a piece in some place. -/
structure Lexeme.Is (l : Lexeme) (p : Piece) : Prop where
  kind : l.kind = p.kind
  text : l.text = p.text
  adjacent : p.tight = true → l.lead = []

/-- Lexemes are pieces, one for one. -/
def Lexeme.Are (ls : List Lexeme) (ps : List Piece) : Prop :=
  List.Forall₂ Lexeme.Is ls ps

/-- A text is cut into pieces: blanks, a piece that the rest of the text does not go on with, and
the pieces of the rest.  A name directly after a point makes a tight piece. -/
inductive Cuts : List Char → List Piece → Prop where
  | blanks {lead : List Char} (blank : ∀ c ∈ lead, Lexeme.isSpace c = true) : Cuts lead []
  | piece {lead rest : List Char} {c : Char} {cs : List Char} {kind : LexemeKind}
      {ps : List Piece} (blank : ∀ c ∈ lead, Lexeme.isSpace c = true)
      (visible : Lexeme.isSpace c = false ∧ c ≠ '/') (whole : '\x00' ∉ c :: cs)
      (plain : kind ≠ .directive) (cut : Lexeme.skipLexeme (c :: cs ++ rest) = some (kind, rest))
      (later : Cuts rest ps) : Cuts (lead ++ (c :: cs ++ rest)) (⟨kind, c :: cs, false⟩ :: ps)
  | pointed {lead rest name : List Char} {ps : List Piece}
      (blank : ∀ c ∈ lead, Lexeme.isSpace c = true) (named : isName name = true)
      (stops : ∀ c ∈ rest.head?, continuesWord c = false) (later : Cuts rest ps) :
      Cuts (lead ++ ('.' :: (name ++ rest))) (symbolPiece "." :: ⟨.word, name, true⟩ :: ps)

/-! ## Scanning -/

/-- What does not begin a comment is skipped if it is a blank, and stays otherwise. -/
theorem skipLead_cons {c : Char} (slash : c ≠ '/') (fuel : Nat) (cs : List Char) :
    Lexeme.skipLead (fuel + 1) (c :: cs) =
      if Lexeme.isSpace c then Lexeme.skipLead fuel cs else some (c :: cs) := by
  rw [Lexeme.skipLead.eq_def]
  dsimp only
  split
  · rename_i same
    exact absurd (List.cons.inj same).1 slash
  · rename_i same
    exact absurd (List.cons.inj same).1 slash
  · rename_i same
    obtain ⟨rfl, rfl⟩ := List.cons.inj same
    rfl
  · rename_i same
    cases same

theorem skipLead_space {c : Char} (space : Lexeme.isSpace c = true) (fuel : Nat)
    (cs : List Char) : Lexeme.skipLead (fuel + 1) (c :: cs) = Lexeme.skipLead fuel cs := by
  have slash : c ≠ '/' := by
    rintro rfl
    cases space
  rw [skipLead_cons slash, if_pos space]

theorem skipLead_visible {c : Char} (visible : Lexeme.isSpace c = false ∧ c ≠ '/') (fuel : Nat)
    (cs : List Char) : Lexeme.skipLead (fuel + 1) (c :: cs) = some (c :: cs) := by
  rw [skipLead_cons visible.2, visible.1, if_neg (by decide)]

/-- Blanks in front of a text are skipped. -/
theorem skipLead_append {lead : List Char} (blank : ∀ c ∈ lead, Lexeme.isSpace c = true)
    (fuel : Nat) (cs : List Char) :
    Lexeme.skipLead (lead.length + fuel) (lead ++ cs) = Lexeme.skipLead fuel cs := by
  induction lead with
  | nil => rw [List.length_nil, Nat.zero_add, List.nil_append]
  | cons c lead ih =>
    rw [List.forall_mem_cons] at blank
    rw [List.length_cons, Nat.succ_add, List.cons_append, skipLead_space blank.1, ih blank.2]

theorem scan_blanks {lead : List Char} (blank : ∀ c ∈ lead, Lexeme.isSpace c = true)
    (fuel line : Nat) : Lexeme.scan (fuel + 1) line lead = some [] := by
  have skipped := skipLead_append blank 1 []
  rw [List.append_nil] at skipped
  simp only [Lexeme.scan, skipped]
  rfl

/-- Scanning one lexeme behind what is skipped goes on behind the lexeme. -/
theorem exists_scan_step {lead text rest : List Char} {kind : LexemeKind} (nonempty : text ≠ [])
    (skipped : Lexeme.skipLead ((lead ++ (text ++ rest)).length + 1) (lead ++ (text ++ rest)) =
      some (text ++ rest))
    (cut : Lexeme.skipLexeme (text ++ rest) = some (kind, rest)) (fuel line : Nat) :
    ∃ here next, Lexeme.scan (fuel + 1) line (lead ++ (text ++ rest)) =
      (Lexeme.scan fuel next rest).map (⟨kind, text, lead, here⟩ :: ·) := by
  have behind : Lexeme.before (lead ++ (text ++ rest)) (text ++ rest) = lead := before_append _ _
  have inside : Lexeme.before (text ++ rest) rest = text := before_append _ _
  refine ⟨line + Lexeme.feeds lead, line + Lexeme.feeds lead + Lexeme.feeds text, ?_⟩
  obtain ⟨c, cs, rfl⟩ := List.exists_cons_of_ne_nil nonempty
  simp only [Lexeme.scan, skipped]
  rw [List.cons_append] at cut behind inside ⊢
  simp only [cut, behind, inside]

/-- Scanning blanks and one lexeme goes on behind the lexeme. -/
theorem exists_scan_append {lead text rest : List Char} {c : Char} {cs : List Char}
    {kind : LexemeKind} (blank : ∀ c ∈ lead, Lexeme.isSpace c = true)
    (first : text = c :: cs) (visible : Lexeme.isSpace c = false ∧ c ≠ '/')
    (cut : Lexeme.skipLexeme (text ++ rest) = some (kind, rest)) (fuel line : Nat) :
    ∃ here next, Lexeme.scan (fuel + 1) line (lead ++ (text ++ rest)) =
      (Lexeme.scan fuel next rest).map (⟨kind, text, lead, here⟩ :: ·) := by
  subst first
  refine exists_scan_step (List.cons_ne_nil c cs) ?_ cut fuel line
  rw [List.length_append, Nat.add_assoc, skipLead_append blank]
  exact skipLead_visible visible _ _

theorem exists_visible_of_isName {name : List Char} (named : isName name = true) :
    ∃ c cs, name = c :: cs ∧ Lexeme.isSpace c = false ∧ c ≠ '/' := by
  obtain ⟨c, cs, starts, -, rfl | rfl⟩ := exists_of_isName named
  · refine ⟨c, cs, rfl, not_isSpace_of_startsWord starts, ?_⟩
    rintro rfl
    exact absurd starts (by decide)
  · exact ⟨'@', c :: cs, rfl, by decide, by decide⟩

theorem isDigit_of_startsWord {c : Char} (h : startsWord c = true) : c.isDigit = false := by
  have each : ∀ n ∈ List.range' 48 10, startsWord (Char.ofNat n) = false := by decide +kernel
  cases digit : c.isDigit with
  | false => rfl
  | true =>
    obtain ⟨low, high⟩ := Decimal.toNat_of_isDigit digit
    have other := each c.toNat (by rw [List.mem_range'_1]; omega)
    rw [Char.ofNat_toNat, h] at other
    cases other

/-- A point in front of a name is a symbol of its own. -/
theorem skipLexeme_point {name : List Char} (named : isName name = true) (rest : List Char) :
    Lexeme.skipLexeme ('.' :: (name ++ rest)) = some (.symbol, name ++ rest) := by
  have first : ∃ c cs, name = c :: cs ∧ c.isDigit = false ∧ c ≠ '.' := by
    obtain ⟨c, cs, starts, -, rfl | rfl⟩ := exists_of_isName named
    · refine ⟨c, cs, rfl, isDigit_of_startsWord starts, ?_⟩
      rintro rfl
      exact absurd starts (by decide)
    · exact ⟨'@', c :: cs, rfl, by decide, by decide⟩
  obtain ⟨c, cs, rfl, digit, point⟩ := first
  have noWord : startsWord '.' = false := by decide
  have long : (Lexeme.longSymbols.find? fun s => s.isPrefixOf ('.' :: c :: (cs ++ rest))) =
      none := by
    have other : ('.' == c) = false := by simp [Ne.symm point]
    simp [Lexeme.longSymbols, List.isPrefixOf, other]
  have symbol : Lexeme.skipSymbol ('.' :: c :: (cs ++ rest)) = some (c :: (cs ++ rest)) := by
    rw [Lexeme.skipSymbol, long]
    rfl
  simp [Lexeme.skipLexeme, noWord, digit, symbol]

/-- Text that is cut into pieces scans to lexemes that are these pieces, whatever its first line
is called.  The induction is on the pieces; each takes one step of the scan. -/
theorem exists_scan_of_cuts {cs : List Char} {ps : List Piece} (h : Cuts cs ps) :
    ∀ fuel line, cs.length < fuel →
      ∃ ls, Lexeme.scan fuel line cs = some ls ∧ Lexeme.Are ls ps ∧
        ∀ l ∈ ls, l.kind ≠ .directive := by
  induction h with
  | blanks blank =>
    intro fuel line enough
    obtain ⟨fuel, rfl⟩ : ∃ n, fuel = n + 1 := ⟨fuel - 1, by omega⟩
    exact ⟨[], scan_blanks blank fuel line, .nil, by simp⟩
  | @piece lead rest c cs kind ps blank visible _ plain cut _ ih =>
    intro fuel line enough
    simp only [List.length_append, List.length_cons] at enough
    obtain ⟨fuel, rfl⟩ : ∃ n, fuel = n + 1 := ⟨fuel - 1, by omega⟩
    obtain ⟨here, next, scanned⟩ := exists_scan_append blank rfl visible cut fuel line
    obtain ⟨ls, later, are, others⟩ := ih fuel next (by omega)
    rw [scanned, later]
    exact ⟨_, rfl, .cons ⟨rfl, rfl, by simp⟩ are, List.forall_mem_cons.2 ⟨plain, others⟩⟩
  | @pointed lead rest name ps blank named stops _ ih =>
    intro fuel line enough
    simp only [List.length_append, List.length_cons] at enough
    obtain ⟨c, cs, first, visible⟩ := exists_visible_of_isName named
    have longer : 0 < name.length := by
      rw [first]
      exact Nat.succ_pos _
    obtain ⟨fuel, rfl⟩ : ∃ n, fuel = n + 2 := ⟨fuel - 2, by omega⟩
    have point : Lexeme.skipLexeme (['.'] ++ (name ++ rest)) = some (.symbol, name ++ rest) :=
      skipLexeme_point named rest
    obtain ⟨here, next, scanned⟩ :=
      exists_scan_append blank rfl ⟨by decide, by decide⟩ point (fuel + 1) line
    have nothing : ∀ c ∈ ([] : List Char), Lexeme.isSpace c = true := by simp
    obtain ⟨here', next', scanned'⟩ := exists_scan_append nothing first visible
      (skipLexeme_name named stops) fuel next
    obtain ⟨ls, later, are, others⟩ := ih fuel next' (by omega)
    rw [List.nil_append, later] at scanned'
    rw [List.singleton_append, scanned'] at scanned
    refine ⟨_, scanned,
      .cons ⟨rfl, rfl, fun tight => by cases tight⟩ (.cons ⟨rfl, rfl, fun _ => rfl⟩ are),
      ?_⟩
    rw [List.forall_mem_cons, List.forall_mem_cons]
    exact ⟨(by nofun), (by nofun), others⟩

/-- Text that is cut into pieces holds no null character. -/
theorem null_notMem_of_cuts {cs : List Char} {ps : List Piece} (h : Cuts cs ps) : '\x00' ∉ cs := by
  have noSpace {lead : List Char} (blank : ∀ c ∈ lead, Lexeme.isSpace c = true) :
      '\x00' ∉ lead := by
    intro mem
    exact absurd (blank _ mem) (by decide)
  induction h with
  | blanks blank => exact noSpace blank
  | piece blank _ whole _ _ _ ih =>
    rw [List.mem_append, List.mem_append]
    rintro (mem | mem | mem)
    · exact noSpace blank mem
    · exact whole mem
    · exact ih mem
  | pointed blank named _ _ ih =>
    rw [List.mem_append, List.mem_cons, List.mem_append]
    rintro (mem | mem | mem | mem)
    · exact noSpace blank mem
    · cases mem
    · exact absurd (isNamePart_of_mem named _ mem) (by decide)
    · exact ih mem

/-! ## Cutting from the end -/

/-- The characters that may follow a word or a literal. -/
def stops : List Char :=
  [' ', '\n', '(', ')', ',', ';', ']', '.', ':', '?']

/-- A text does not go on with a word or a literal in front of it. -/
def Stops (cs : List Char) : Prop :=
  ∀ c ∈ cs.head?, c ∈ stops

theorem stops_cons {c : Char} (h : c ∈ stops) (cs : List Char) : Stops (c :: cs) := by
  intro d mem
  injection mem with mem
  exact mem ▸ h

theorem Stops.standsApart {cs : List Char} (h : Stops cs) : StandsApart cs := by
  have each : ∀ c ∈ stops, c ≠ '"' ∧ c ≠ 'u' ∧ c ≠ 'U' := by simp [stops]
  intro c mem
  exact each c (h c mem)

theorem Stops.notWord {cs : List Char} (h : Stops cs) :
    ∀ c ∈ cs.head?, continuesWord c = false := by
  have each : stops.all (fun c => !continuesWord c) = true := by decide +kernel
  intro c mem
  simpa using List.all_eq_true.1 each c (h c mem)

/-- The symbols that no character behind them changes. -/
def firmSymbols : List String :=
  ["(", ")", "[", "]", "\x7b", "\x7d", ",", ";", "::", "!=", "&&"]

/-- The symbols that a blank stands behind. -/
def spacedSymbols : List String :=
  ["=", "??", "?", ":"]

theorem skipLexeme_firm {s : String} (h : s ∈ firmSymbols) (rest : List Char) :
    Lexeme.skipLexeme (s.toList ++ rest) = some (.symbol, rest) := by
  simp only [firmSymbols, List.mem_cons, List.not_mem_nil, or_false] at h
  rcases h with rfl | rfl | rfl | rfl | rfl | rfl | rfl | rfl | rfl | rfl | rfl <;> rfl

theorem skipLexeme_spaced {s : String} (h : s ∈ spacedSymbols) (rest : List Char) :
    Lexeme.skipLexeme (s.toList ++ ' ' :: rest) = some (.symbol, ' ' :: rest) := by
  simp only [spacedSymbols, List.mem_cons, List.not_mem_nil, or_false] at h
  rcases h with rfl | rfl | rfl | rfl <;> rfl

/-- A symbol begins with a character that is neither a blank nor a slash, and holds no null
character. -/
theorem exists_visible_of_symbol {s : String} (h : s ∈ firmSymbols ++ spacedSymbols) :
    ∃ c cs, s.toList = c :: cs ∧ (Lexeme.isSpace c = false ∧ c ≠ '/') ∧ '\x00' ∉ c :: cs := by
  have each : (firmSymbols ++ spacedSymbols).all (fun s => s.toList.all fun c =>
      !Lexeme.isSpace c && (c != '/' && c != '\x00')) = true := by decide +kernel
  have nonempty : ∀ s ∈ firmSymbols ++ spacedSymbols, s.toList ≠ [] := by decide +kernel
  obtain ⟨c, cs, first⟩ := List.exists_cons_of_ne_nil (nonempty s h)
  have chars : ∀ c ∈ s.toList, Lexeme.isSpace c = false ∧ c ≠ '/' ∧ c ≠ '\x00' := by
    simpa using List.all_eq_true.1 each s h
  rw [first] at chars
  refine ⟨c, cs, first, ?_, ?_⟩
  · exact ⟨(chars c List.mem_cons_self).1, (chars c List.mem_cons_self).2.1⟩
  · intro mem
    exact (chars _ mem).2.2 rfl

/-- A number without a letter behind its first digit is one of decimal digits. -/
theorem skipNumber_decimal {d e : Char} (letter : e ∉ ['x', 'X', 'b', 'B']) (cs : List Char) :
    Lexeme.skipNumber (d :: e :: cs) =
      (Lexeme.skipExponent (Lexeme.skipFraction
        ((d :: e :: cs).dropWhile Lexeme.isDigitOrGap))).dropWhile Lexeme.isNumberSuffix := by
  simp only [List.mem_cons, List.not_mem_nil, or_false, not_or] at letter
  obtain ⟨x, bigX, b, bigB⟩ := letter
  unfold Lexeme.skipNumber
  dsimp only
  split
  · rename_i same
    exact absurd (List.cons.inj (List.cons.inj same).2).1 x
  · rename_i same
    exact absurd (List.cons.inj (List.cons.inj same).2).1 bigX
  · rename_i same
    exact absurd (List.cons.inj (List.cons.inj same).2).1 b
  · rename_i same
    exact absurd (List.cons.inj (List.cons.inj same).2).1 bigB
  · rfl

theorem exists_digits (n : Nat) :
    ∃ d ds, Decimal.naturalText n = d :: ds ∧ ∀ c ∈ d :: ds, c.isDigit = true := by
  obtain ⟨d, ds, same⟩ := List.exists_cons_of_ne_nil (Decimal.naturalText_ne_nil n)
  exact ⟨d, ds, same, fun c mem => Decimal.isDigit_of_mem_naturalText (same ▸ mem)⟩

theorem skipNumber_naturalText (n : Nat) {c : Char} (ending : c = ',' ∨ c = ')')
    (rest : List Char) : Lexeme.skipNumber (Decimal.naturalText n ++ c :: rest) = c :: rest := by
  obtain ⟨d, ds, written, digits⟩ := exists_digits n
  have run : (d :: ds ++ c :: rest).dropWhile Lexeme.isDigitOrGap = c :: rest := by
    rw [List.dropWhile_append_of_pos fun a mem => by simp [Lexeme.isDigitOrGap, digits a mem]]
    rcases ending with rfl | rfl <;> rfl
  have letters : ∀ e ∈ ['x', 'X', 'b', 'B'], e.isDigit = false ∧ e ≠ ',' ∧ e ≠ ')' := by
    intro e mem
    simp only [List.mem_cons, List.not_mem_nil, or_false] at mem
    rcases mem with rfl | rfl | rfl | rfl <;> decide
  have tail : (Lexeme.skipExponent (Lexeme.skipFraction (c :: rest))).dropWhile
      Lexeme.isNumberSuffix = c :: rest := by
    rcases ending with rfl | rfl <;> rfl
  rw [written]
  cases ds with
  | nil =>
    have letter : c ∉ ['x', 'X', 'b', 'B'] := by
      intro mem
      rcases ending with rfl | rfl
      · exact (letters _ mem).2.1 rfl
      · exact (letters _ mem).2.2 rfl
    rw [List.cons_append, List.nil_append] at run ⊢
    rw [skipNumber_decimal letter, run, tail]
  | cons e ds =>
    have letter : e ∉ ['x', 'X', 'b', 'B'] := by
      intro mem
      have digit := digits e (by simp)
      rw [(letters e mem).1] at digit
      cases digit
    rw [List.cons_append, List.cons_append] at run ⊢
    rw [skipNumber_decimal letter, run, tail]

/-- A number ends before a comma or a closing parenthesis. -/
theorem skipLexeme_number (n : Nat) {c : Char} (ending : c = ',' ∨ c = ')') (rest : List Char) :
    Lexeme.skipLexeme (Decimal.naturalText n ++ c :: rest) = some (.number, c :: rest) := by
  have skipped := skipNumber_naturalText n ending rest
  obtain ⟨d, ds, written, digits⟩ := exists_digits n
  have digit := digits d List.mem_cons_self
  have noWord : startsWord d = false := by
    cases starts : startsWord d with
    | false => rfl
    | true =>
      rw [isDigit_of_startsWord starts] at digit
      cases digit
  have ne {e : Char} (other : e.isDigit = false) : d ≠ e := by
    rintro rfl
    rw [digit] at other
    cases other
  have quote := ne (e := '"') (by decide)
  have apostrophe := ne (e := '\'') (by decide)
  have dollar := ne (e := '$') (by decide)
  have at' := ne (e := '@') (by decide)
  have hash := ne (e := '#') (by decide)
  rw [written] at skipped ⊢
  rw [List.cons_append] at skipped ⊢
  simp [Lexeme.skipLexeme, *]
/-- Apart from its mark and its quotes, a verbatim literal holds what it stands for. -/
theorem mem_verbatimLiteral_iff {cs : List Char} {c : Char} (other : c ≠ '@' ∧ c ≠ '"') :
    c ∈ verbatimLiteral cs ↔ c ∈ cs := by
  have each (d : Char) : c ∈ verbatimChar d ↔ c = d := by
    unfold verbatimChar
    split
    · rename_i quote
      simp [quote, other.2]
    · simp
  simp [verbatimLiteral, other.1, other.2, each]

section Cutting

variable {rest : List Char} {ps : List Piece}

/-- A visible lexeme in front of a text that does not go on with it. -/
theorem Cuts.lexeme {cs : List Char} {kind : LexemeKind}
    (visible : ∃ c more, cs = c :: more ∧ (Lexeme.isSpace c = false ∧ c ≠ '/'))
    (whole : '\x00' ∉ cs) (plain : kind ≠ .directive)
    (cut : Lexeme.skipLexeme (cs ++ rest) = some (kind, rest)) (later : Cuts rest ps) :
    Cuts (cs ++ rest) (⟨kind, cs, false⟩ :: ps) := by
  obtain ⟨c, more, rfl, visible⟩ := visible
  exact @Cuts.piece [] _ _ _ _ _ (by simp) visible whole plain cut later

theorem Cuts.space {c : Char} (space : Lexeme.isSpace c = true) (later : Cuts rest ps) :
    Cuts (c :: rest) ps := by
  cases later with
  | blanks blank => exact .blanks (List.forall_mem_cons.2 ⟨space, blank⟩)
  | @piece lead _ _ _ _ _ blank visible whole plain cut later =>
    exact @Cuts.piece (c :: lead) _ _ _ _ _ (List.forall_mem_cons.2 ⟨space, blank⟩) visible whole
      plain cut later
  | pointed blank named stops later =>
    exact .pointed (List.forall_mem_cons.2 ⟨space, blank⟩) named stops later

theorem Cuts.blank (later : Cuts rest ps) : Cuts (' ' :: rest) ps :=
  later.space (by decide)

theorem Cuts.feed (later : Cuts rest ps) : Cuts ('\n' :: rest) ps :=
  later.space (by decide)

theorem Cuts.word {w : List Char} (named : isName w = true) (stops : Stops rest)
    (later : Cuts rest ps) : Cuts (w ++ rest) (wordPiece w :: ps) := by
  obtain ⟨c, more, first, visible⟩ := exists_visible_of_isName named
  refine later.lexeme ⟨c, more, first, visible⟩ ?_ (by nofun) (skipLexeme_name named stops.notWord)
  intro mem
  exact absurd (isNamePart_of_mem named _ mem) (by decide)

theorem Cuts.firm {s : String} (h : s ∈ firmSymbols) (later : Cuts rest ps) :
    Cuts (s.toList ++ rest) (symbolPiece s :: ps) := by
  obtain ⟨c, cs, first, visible, whole⟩ := exists_visible_of_symbol (List.mem_append_left _ h)
  exact later.lexeme ⟨c, cs, first, visible⟩ (first ▸ whole) (by nofun) (skipLexeme_firm h rest)

theorem Cuts.spaced {s : String} (h : s ∈ spacedSymbols) (later : Cuts (' ' :: rest) ps) :
    Cuts (s.toList ++ ' ' :: rest) (symbolPiece s :: ps) := by
  obtain ⟨c, cs, first, visible, whole⟩ := exists_visible_of_symbol (List.mem_append_right _ h)
  exact later.lexeme ⟨c, cs, first, visible⟩ (first ▸ whole) (by nofun)
    (skipLexeme_spaced h rest)

theorem Cuts.regular (cs : List Char) (stops : Stops rest) (later : Cuts rest ps) :
    Cuts (regularLiteral cs ++ rest) (textPiece (regularLiteral cs) :: ps) := by
  refine later.lexeme ⟨'"', _, rfl, by decide, by decide⟩ ?_ (by nofun)
    (skipLexeme_regularLiteral cs stops.standsApart)
  intro mem
  exact absurd (visible_of_mem_regularLiteral mem) (by decide)

theorem Cuts.verbatim {cs : List Char} (whole : '\x00' ∉ cs) (stops : Stops rest)
    (later : Cuts rest ps) :
    Cuts (verbatimLiteral cs ++ rest) (textPiece (verbatimLiteral cs) :: ps) := by
  refine later.lexeme ⟨'@', _, rfl, by decide, by decide⟩ ?_ (by nofun)
    (skipLexeme_verbatimLiteral cs stops.standsApart)
  rwa [mem_verbatimLiteral_iff (by decide)]

theorem Cuts.number (n : Nat) {c : Char} (ending : c = ',' ∨ c = ')')
    (later : Cuts (c :: rest) ps) :
    Cuts (Decimal.naturalText n ++ c :: rest) (numberPiece n :: ps) := by
  obtain ⟨d, ds, written, digits⟩ := exists_digits n
  refine later.lexeme ⟨d, ds, written, ?_, ?_⟩ ?_ (by nofun) (skipLexeme_number n ending rest)
  · have digit := digits d List.mem_cons_self
    have small := Decimal.toNat_of_isDigit digit
    rw [Lexeme.isSpace, Decimal.isWhiteSpace_of_isDigit digit, Bool.false_or, beq_eq_false_iff_ne]
    omega
  · rintro rfl
    exact absurd (digits _ List.mem_cons_self) (by decide)
  · rw [written]
    intro mem
    exact absurd (digits _ mem) (by decide)

end Cutting

end CallSiteIds.Source
