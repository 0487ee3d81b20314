import CallSiteIds.Proofs.Source.Pieces
import CallSiteIds.Source.Grammar

/-!
# Readers over pieces

A reader reads pieces when it leaves what stands behind them, whatever lexemes they are and as
long as what stands behind begins in the right way (`Reads`).  A phrase takes pieces when every
reader for it does that is allowed to nest deep enough: sixteen rules for each piece, and as many
as the phrases before the first piece need (`Takes`).  Where nothing of a phrase lies ahead, no
depth helps (`Declines`).
-/

set_option autoImplicit false

namespace CallSiteIds.Source

/-! ## Lexemes that are pieces -/

/-- Words that mean something of their own in some places, although they are not reserved. -/
def contextualWords : List String :=
  [ "and", "ascending", "async", "await", "by", "descending", "equals", "file", "from", "group",
    "into", "join", "let", "not", "on", "or", "orderby", "partial", "record", "required", "scoped",
    "select", "when", "where", "with", "yield" ]

/-- The words with a meaning of their own. -/
def meaningfulWords : List String :=
  reservedWords ++ contextualWords

/-- A word without a meaning of its own. -/
structure IsFree (p : Piece) : Prop where
  word : p.kind = .word
  meaningless : String.ofList p.text ∉ meaningfulWords

section Lexemes

variable {l : Lexeme} {p : Piece} {ls rest : List Lexeme} {ps qs : List Piece}

theorem exists_eq_of_is (h : l.Is p) : ∃ lead line, l = ⟨p.kind, p.text, lead, line⟩ :=
  ⟨l.lead, l.line, by rw [← h.kind, ← h.text]⟩

theorem exists_cons_of_are (h : Lexeme.Are ls (p :: ps)) :
    ∃ l more, ls = l :: more ∧ l.Is p ∧ Lexeme.Are more ps := by
  obtain ⟨l, more, is, are, rfl⟩ := List.forall₂_cons_right_iff.1 h
  exact ⟨l, more, rfl, is, are⟩

theorem exists_append_of_are (h : Lexeme.Are ls (ps ++ qs)) :
    ∃ ls₁ ls₂, ls = ls₁ ++ ls₂ ∧ Lexeme.Are ls₁ ps ∧ Lexeme.Are ls₂ qs := by
  induction ps generalizing ls with
  | nil => exact ⟨[], ls, rfl, .nil, h⟩
  | cons p ps ih =>
    obtain ⟨l, more, rfl, is, are⟩ := exists_cons_of_are h
    obtain ⟨ls₁, ls₂, rfl, first, second⟩ := ih are
    exact ⟨l :: ls₁, ls₂, rfl, .cons is first, second⟩

theorem eq_nil_of_are (h : Lexeme.Are ls []) : ls = [] :=
  List.forall₂_nil_right_iff.1 h

/-- A test of the next lexeme where pieces lie ahead. -/
theorem ahead_of_are {test : Lexeme → Bool} {b : Bool} (first : ∀ l : Lexeme, l.Is p → test l = b)
    (h : Lexeme.Are ls (p :: ps)) : Grammar.ahead test (ls ++ rest) = b := by
  obtain ⟨l, more, rfl, is, -⟩ := exists_cons_of_are h
  exact first l is

theorem isAnyOf_of_isFree (free : IsFree p) (h : l.Is p) {ws : List String}
    (known : ∀ w ∈ ws, w ∈ meaningfulWords) : l.isAnyOf ws = false := by
  rw [Lexeme.isAnyOf, Bool.and_eq_false_iff, List.any_eq_false]
  right
  intro w mem same
  rw [beq_iff_eq, h.text] at same
  apply free.meaningless
  rw [same, String.ofList_toList]
  exact known w mem

theorem isWord_eq_isAnyOf (l : Lexeme) (w : String) : l.isWord w = l.isAnyOf [w] := by
  simp [Lexeme.isAnyOf, Lexeme.isWord]

theorem isWord_of_isFree (free : IsFree p) (h : l.Is p) {w : String}
    (known : w ∈ meaningfulWords) : l.isWord w = false := by
  rw [isWord_eq_isAnyOf]
  exact isAnyOf_of_isFree free h (List.forall_mem_singleton.2 known)

theorem isReserved_of_isFree (free : IsFree p) (h : l.Is p) : l.isReserved = false :=
  isAnyOf_of_isFree free h fun _ mem => List.mem_append_left _ mem

theorem isName_of_isFree (free : IsFree p) (h : l.Is p) : l.isName = true := by
  rw [Lexeme.isName, isReserved_of_isFree free h, h.kind, free.word]
  rfl

theorem isAnyOf_of_is {w : String} (h : l.Is (wordPiece w.toList)) (ws : List String) :
    l.isAnyOf ws = decide (w ∈ ws) := by
  rw [Bool.eq_iff_iff, decide_eq_true_iff]
  simp [Lexeme.isAnyOf, h.kind, h.text, wordPiece, String.toList_inj]

theorem isWord_of_is {w : String} (h : l.Is (wordPiece w.toList)) (v : String) :
    l.isWord v = decide (w = v) := by
  rw [Bool.eq_iff_iff, decide_eq_true_iff]
  simp [Lexeme.isWord, h.kind, h.text, wordPiece, String.toList_inj]

/-- A word is no symbol. -/
theorem isSymbol_of_word (word : p.kind = .word) (h : l.Is p) (s : String) :
    l.isSymbol s = false := by
  rw [Lexeme.isSymbol, h.kind, word]
  rfl

theorem isSymbolOf_of_word (word : p.kind = .word) (h : l.Is p) (ss : List String) :
    l.isSymbolOf ss = false := by
  rw [Lexeme.isSymbolOf, h.kind, word]
  rfl

end Lexemes

namespace Grammar

/-! ## Reading -/

/-- A reader reads pieces in front of lexemes that begin in the right way. -/
def Reads (r : Reader) (ps : List Piece) (ends : List Lexeme → Prop) : Prop :=
  ∀ ls rest, Lexeme.Are ls ps → ends rest → r (ls ++ rest) = some rest

/-- A reader finds nothing in front of lexemes that begin in the given way. -/
def Refuses (r : Reader) (ends : List Lexeme → Prop) : Prop :=
  ∀ rest, ends rest → r rest = none

/-- Anything may stand behind. -/
def Anything (_ : List Lexeme) : Prop := True

/-- One of some symbols stands behind. -/
def Followed (ss : List String) (rest : List Lexeme) : Prop :=
  ahead (Lexeme.isSymbolOf ss) rest = true

/-- None of some symbols stands behind. -/
def NotFollowed (ss : List String) (rest : List Lexeme) : Prop :=
  ahead (Lexeme.isSymbolOf ss) rest = false

section Readers

variable {r s : Reader} {ps qs : List Piece} {p : Piece} {ends ends' : List Lexeme → Prop}

theorem Reads.mono (h : Reads r ps ends) (weaker : ∀ rest, ends' rest → ends rest) :
    Reads r ps ends' :=
  fun ls rest are right => h ls rest are (weaker rest right)

/-- Two readers, one after the other. -/
theorem Reads.then (first : Reads r ps ends) (second : Reads s qs ends')
    (fits : ∀ ls rest, Lexeme.Are ls qs → ends' rest → ends (ls ++ rest)) :
    Reads (r >=> s) (ps ++ qs) ends' := by
  intro ls rest are right
  obtain ⟨ls₁, ls₂, rfl, are₁, are₂⟩ := exists_append_of_are are
  show (r (ls₁ ++ ls₂ ++ rest)).bind s = some rest
  rw [List.append_assoc, first ls₁ (ls₂ ++ rest) are₁ (fits ls₂ rest are₂ right)]
  exact second ls₂ rest are₂ right

theorem reads_one {test : Lexeme → Bool} (passes : ∀ l : Lexeme, l.Is p → test l = true) :
    Reads (one test) [p] ends := by
  intro ls rest are _
  obtain ⟨l, more, rfl, is, are⟩ := exists_cons_of_are are
  rw [eq_nil_of_are are, List.singleton_append]
  exact if_pos (passes l is)

theorem reads_symbol (s : String) : Reads (symbol s) [symbolPiece s] ends := by
  apply reads_one
  intro l is
  simp [Lexeme.isSymbol, is.kind, is.text, symbolPiece]

theorem reads_anyWord (word : p.kind = .word) : Reads anyWord [p] ends := by
  apply reads_one
  intro l is
  simp [is.kind, word]

theorem Reads.maybe (h : Reads r ps ends) : Reads (Grammar.maybe r) ps ends := by
  intro ls rest are right
  rw [Grammar.maybe, h ls rest are right, Option.getD_some]

theorem Refuses.maybe (h : Refuses r ends) : Reads (Grammar.maybe r) [] ends := by
  intro ls rest are right
  rw [eq_nil_of_are are, List.nil_append, Grammar.maybe, h rest right, Option.getD_none]

/-- A symbol and what a reader reads behind it. -/
theorem Reads.behind (s : String) (h : Reads r ps ends) :
    Reads (symbol s >=> r) (symbolPiece s :: ps) ends :=
  (reads_symbol s : Reads _ _ Anything).then h fun _ _ _ _ => trivial

theorem refuses_one {test : Lexeme → Bool} (other : ∀ rest, ends rest → ahead test rest = false) :
    Refuses (one test) ends := by
  intro rest right
  have absent := other rest right
  cases rest with
  | nil => rfl
  | cons l more => exact if_neg (by simpa [ahead] using absent)

theorem Refuses.then (h : Refuses r ends) : Refuses (r >=> s) ends := by
  intro rest right
  show (r rest).bind s = none
  rw [h rest right, Option.bind_none]

theorem notFollowed_of_mem {ss : List String} {t : String} {rest : List Lexeme}
    (h : NotFollowed ss rest) (mem : t ∈ ss) : ahead (Lexeme.isSymbol t) rest = false := by
  cases rest with
  | nil => rfl
  | cons l more =>
    simp only [NotFollowed, ahead, Lexeme.isSymbolOf, Bool.and_eq_false_iff, List.any_eq_false] at h
    simp only [ahead, Lexeme.isSymbol, Bool.and_eq_false_iff]
    exact h.imp_right fun each => by simpa using each t mem

/-- A symbol is not read where it does not stand. -/
theorem refuses_symbol (s : String) : Refuses (symbol s) (NotFollowed [s]) :=
  refuses_one fun _ other => notFollowed_of_mem other (List.mem_singleton_self s)

theorem notFollowed_mono {ss ts : List String} {rest : List Lexeme} (h : NotFollowed ss rest)
    (sub : ∀ t ∈ ts, t ∈ ss) : NotFollowed ts rest := by
  cases rest with
  | nil => rfl
  | cons l more =>
    simp only [NotFollowed, ahead, Lexeme.isSymbolOf, Bool.and_eq_false_iff,
      List.any_eq_false] at h ⊢
    exact h.imp_right fun each t mem => each t (sub t mem)

theorem notFollowed_of_word {ss : List String} {ls rest : List Lexeme} (word : p.kind = .word)
    (are : Lexeme.Are ls (p :: ps)) : NotFollowed ss (ls ++ rest) :=
  ahead_of_are (fun _ is => isSymbolOf_of_word word is ss) are

theorem followed_of_symbol {ss : List String} {t : String} {ls rest : List Lexeme} (mem : t ∈ ss)
    (are : Lexeme.Are ls (symbolPiece t :: ps)) : Followed ss (ls ++ rest) := by
  refine ahead_of_are (fun l is => ?_) are
  obtain ⟨lead, line, rfl⟩ := exists_eq_of_is is
  simpa [Lexeme.isSymbolOf, symbolPiece] using ⟨t, mem, rfl⟩

/-- What one of some symbols begins. -/
theorem exists_of_followed {ss : List String} {rest : List Lexeme} (h : Followed ss rest) :
    ∃ t ∈ ss, ∃ lead line more, rest = ⟨.symbol, t.toList, lead, line⟩ :: more := by
  cases rest with
  | nil => cases h
  | cons l more =>
    obtain ⟨kind, text, lead, line⟩ := l
    simp only [Followed, ahead, Lexeme.isSymbolOf, Bool.and_eq_true, beq_iff_eq,
      List.any_eq_true] at h
    obtain ⟨rfl, t, mem, rfl⟩ := h
    exact ⟨t, mem, lead, line, more, rfl⟩

theorem exists_of_followed_singleton {s : String} {rest : List Lexeme} (h : Followed [s] rest) :
    ∃ lead line more, rest = ⟨.symbol, s.toList, lead, line⟩ :: more := by
  obtain ⟨t, mem, lead, line, more, rfl⟩ := exists_of_followed h
  exact ⟨lead, line, more, by rw [List.mem_singleton.1 mem]⟩

theorem ahead_of_followed {s : String} {rest : List Lexeme} (h : Followed [s] rest) :
    ahead (Lexeme.isSymbol s) rest = true := by
  obtain ⟨lead, line, more, rfl⟩ := exists_of_followed_singleton h
  simp [ahead, Lexeme.isSymbol]

/-- What one symbol begins is not begun by another. -/
theorem notFollowed_of_followed {ss ts : List String} {rest : List Lexeme} (h : Followed ss rest)
    (apart : ∀ s ∈ ss, s ∉ ts) : NotFollowed ts rest := by
  obtain ⟨t, mem, lead, line, more, rfl⟩ := exists_of_followed h
  simp only [NotFollowed, ahead, Lexeme.isSymbolOf, Bool.and_eq_false_iff, List.any_eq_false]
  right
  intro u inside same
  rw [beq_iff_eq, String.toList_inj] at same
  exact apart t mem (same ▸ inside)

theorem refuses_symbol_of_followed {s : String} {ss : List String} (other : s ∉ ss) :
    Refuses (symbol s) (Followed ss) := by
  intro rest right
  refine refuses_symbol s rest (notFollowed_of_followed right fun t mem same => other ?_)
  rwa [← List.mem_singleton.1 same]

theorem followed_mono {ss ts : List String} {rest : List Lexeme} (h : Followed ss rest)
    (sub : ∀ s ∈ ss, s ∈ ts) : Followed ts rest := by
  obtain ⟨t, mem, lead, line, more, rfl⟩ := exists_of_followed h
  simpa [Followed, ahead, Lexeme.isSymbolOf] using ⟨t, sub t mem, rfl⟩

theorem notFollowed_of_symbol {ss : List String} {t : String} {ls rest : List Lexeme}
    (other : t ∉ ss) (are : Lexeme.Are ls (symbolPiece t :: ps)) : NotFollowed ss (ls ++ rest) :=
  notFollowed_of_followed (followed_of_symbol (List.mem_singleton_self t) are)
    (List.forall_mem_singleton.2 other)

end Readers

/-! ## Phrases -/

/-- How many rules may nest before the first piece of a phrase. -/
def rank : Phrase → Nat
  | .typePath | .typeTail | .operators | .arguments | .parameters | .block => 1
  | .attributes | .constraints | .typeArguments => 1
  | .typeCore | .postfixes => 2
  | .type | .operand => 3
  | .expression | .baseType => 4
  | .argument | .attributeArgument | .parameter | .statement => 5
  | .commaList item | .trailingList item | .many item => rank item + 1
  | _ => 6

theorem rank_pos (p : Phrase) : 0 < rank p := by
  cases p <;> simp [rank]

/-- A phrase takes pieces in front of lexemes that begin in the right way. -/
def Takes (p : Phrase) (ps : List Piece) (ends : List Lexeme → Prop) : Prop :=
  ∀ depth, 16 * ps.length + rank p ≤ depth → Reads (readWithin depth p) ps ends

/-- Nothing of a phrase lies ahead. -/
def Declines (p : Phrase) (ends : List Lexeme → Prop) : Prop :=
  ∀ depth, Refuses (readWithin depth p) ends

section Phrases

variable {p : Phrase} {ps : List Piece} {ends : List Lexeme → Prop}

theorem takes_of_rule (h : ∀ depth, 16 * ps.length + rank p ≤ depth + 1 →
    Reads (rule (readWithin depth) p) ps ends) : Takes p ps ends := by
  intro depth deep
  have positive := rank_pos p
  obtain ⟨depth, rfl⟩ : ∃ n, depth = n + 1 := ⟨depth - 1, by omega⟩
  exact h depth deep

theorem declines_of_rule (h : ∀ depth, Refuses (rule (readWithin depth) p) ends) :
    Declines p ends := by
  intro depth
  cases depth with
  | zero => exact fun _ _ => rfl
  | succ depth => exact h depth

/-- A phrase is read with a bound on the depth that is large enough. -/
theorem Takes.phrase (h : Takes p ps ends) (small : rank p ≤ 16) :
    Reads (phrase p) ps ends := by
  intro ls rest are right
  have length : ls.length = ps.length := are.length_eq
  exact h _ (by rw [List.length_append]; omega) ls rest are right

theorem Declines.phrase (h : Declines p ends) : Refuses (phrase p) ends :=
  fun rest right => h _ rest right

end Phrases

end Grammar

end CallSiteIds.Source
