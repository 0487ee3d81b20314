import CallSiteIds.Proofs.Source.Statements
import CallSiteIds.Source.Member

/-!
# Attributes over pieces

An attribute is a path with arguments in brackets.  Its arguments are kept as they were written,
so what is read of an argument of one piece is the text of that piece, and the name of the
attribute is settled by its last word when that stands directly behind a point.
-/

set_option autoImplicit false

namespace CallSiteIds.Source.Declaration

open Grammar

/-! ## Arguments -/

/-- What an argument of one piece is written as. -/
def IsTextOf (text : List Char) (ps : List Piece) : Prop :=
  ∀ p, ps = [p] → text = p.text

theorem consumed_append (ls rest : List Lexeme) : consumed (ls ++ rest) rest = ls := by
  rw [consumed, List.length_append, Nat.add_sub_cancel, List.take_left']
  rfl

theorem isTextOf_written {ls : List Lexeme} {ps : List Piece} (are : Lexeme.Are ls ps) :
    IsTextOf (written ls) ps := by
  rintro p rfl
  obtain ⟨l, more, rfl, is, others⟩ := exists_cons_of_are are
  rw [eq_nil_of_are others]
  simp [written, is.text]

/-- The arguments of an attribute are read up to its closing parenthesis. -/
theorem exists_attributeArguments {items : List (List Piece)} (nonempty : items ≠ [])
    (each : ∀ ps ∈ items, IsExpression ps) {ls : List Lexeme}
    (are : Lexeme.Are ls (commaPieces items ++ [symbolPiece ")"])) :
    ∃ texts, List.Forall₂ IsTextOf texts items ∧ ∀ fuel rest, ls.length ≤ fuel →
      attributeArguments fuel (ls ++ rest) = some (texts, rest) := by
  induction items generalizing ls with
  | nil => exact absurd rfl nonempty
  | cons ps items ih =>
    obtain ⟨first, each⟩ := List.forall_mem_cons.1 each
    have read := first.takes_attributeArgument.phrase (by decide)
    cases items with
    | nil =>
      obtain ⟨ls₁, ls₂, rfl, are₁, are₂⟩ := exists_append_of_are are
      refine ⟨[written ls₁], .cons (isTextOf_written are₁) .nil, fun fuel rest enough => ?_⟩
      have followed : EndsItem (ls₂ ++ rest) := followed_of_symbol (by decide) are₂
      obtain ⟨l, more, rfl, is, none⟩ := exists_cons_of_are are₂
      obtain ⟨lead, line, rfl⟩ := exists_eq_of_is is
      obtain rfl := eq_nil_of_are none
      simp only [List.length_append, List.length_singleton] at enough
      obtain ⟨fuel, rfl⟩ : ∃ n, fuel = n + 1 := ⟨fuel - 1, by omega⟩
      rw [List.append_assoc, attributeArguments, read ls₁ _ are₁ followed]
      simp only [consumed_append]
      rfl
    | cons qs items =>
      have pieces : commaPieces (ps :: qs :: items) ++ [symbolPiece ")"] =
          ps ++ symbolPiece "," :: (commaPieces (qs :: items) ++ [symbolPiece ")"]) := by
        simp [commaPieces]
      rw [pieces] at are
      obtain ⟨ls₁, ls₂, rfl, are₁, are₂⟩ := exists_append_of_are are
      obtain ⟨l, more, rfl, is, are₃⟩ := exists_cons_of_are are₂
      obtain ⟨lead, line, rfl⟩ := exists_eq_of_is is
      obtain ⟨texts, are₄, later⟩ := ih (by simp) each are₃
      refine ⟨written ls₁ :: texts, .cons (isTextOf_written are₁) are₄, fun fuel rest enough => ?_⟩
      have followed : EndsItem (_ :: more ++ rest) := followed_of_symbol (by decide) are₂
      simp only [List.length_append, List.length_cons] at enough
      obtain ⟨fuel, rfl⟩ : ∃ n, fuel = n + 1 := ⟨fuel - 1, by omega⟩
      rw [List.append_assoc, attributeArguments, read ls₁ _ are₁ followed]
      simp only [consumed_append]
      show (attributeArguments fuel (more ++ rest)).map _ = _
      rw [later fuel rest (by omega)]
      rfl

/-- The arguments of an attribute are read as a tag. -/
theorem exists_attributeTail {items : List (List Piece)} (nonempty : items ≠ [])
    (each : ∀ ps ∈ items, IsExpression ps) {ls : List Lexeme}
    (are : Lexeme.Are ls (symbolPiece "(" :: (commaPieces items ++ [symbolPiece ")"]))) :
    ∃ texts, List.Forall₂ IsTextOf texts items ∧ ∀ rest,
      attributeTail (ls ++ rest) = some (tagOfArguments texts, rest) := by
  obtain ⟨l, more, rfl, is, tail⟩ := exists_cons_of_are are
  obtain ⟨lead, line, rfl⟩ := exists_eq_of_is is
  obtain ⟨texts, texts_of, reads⟩ := exists_attributeArguments nonempty each tail
  refine ⟨texts, texts_of, fun rest => ?_⟩
  have read := reads (more ++ rest).length rest (by simp)
  have begins : ahead (Lexeme.isSymbol ")") (more ++ rest) = false := by
    cases items with
    | nil => exact absurd rfl nonempty
    | cons ps items =>
      obtain ⟨p, others, rfl, noSymbol, -⟩ := (each ps List.mem_cons_self).begins
      have pieces : ∃ tail,
          commaPieces ((p :: others) :: items) ++ [symbolPiece ")"] = p :: tail := by
        cases items with
        | nil => exact ⟨_, rfl⟩
        | cons qs items => exact ⟨_, rfl⟩
      obtain ⟨behind, pieces⟩ := pieces
      rw [pieces] at tail
      refine ahead_of_are (fun m is => ?_) tail
      rw [Lexeme.isSymbol, is.kind, Bool.and_eq_false_iff]
      exact Or.inl (beq_eq_false_iff_ne.2 noSymbol)
  rw [List.cons_append]
  generalize more ++ rest = ts at begins read
  cases ts with
  | nil => cases read
  | cons r after =>
    have other : r.isSymbol ")" = false := begins
    show (if r.isSymbol ")" then _ else _) = _
    rw [other, if_neg Bool.false_ne_true, read]
    rfl

/-! ## Attribute lists -/

/-- An attribute in brackets. -/
def attributePieces (name : List Piece) (items : List (List Piece)) : List Piece :=
  symbolPiece "[" :: (name ++ symbolPiece "(" ::
    (commaPieces items ++ [symbolPiece ")", symbolPiece "]"]))

/-- A path that names an attribute, and arguments for it. -/
structure IsAttribute (name : List Piece) (items : List (List Piece)) : Prop where
  path : ∃ p segments, name = p :: pathPieces segments ∧ p.kind = .word ∧ IsPath segments
  nonempty : items ≠ []
  each : ∀ ps ∈ items, IsExpression ps

/-- The tags of an attribute with a name and arguments. -/
def tagsOf (name : List Char) (texts : List (List Char)) : List String :=
  if simpleAttributeName name == tagName then [tagOfArguments texts] else []

theorem reads_qualifiedName {p : Piece} {segments : List (String × Piece)} (word : p.kind = .word)
    (path : IsPath segments) :
    Reads (anyWord >=> phrase .typePath) (p :: pathPieces segments) EndsPath :=
  (reads_anyWord word : Reads _ _ Anything).then ((takes_typePath path).phrase (by decide))
    fun _ _ _ _ => trivial

theorem refuses_nameColon {p : Piece} {segments : List (String × Piece)} (path : IsPath segments)
    {ls ls' rest : List Lexeme} {more : List Piece}
    (are : Lexeme.Are ls (p :: pathPieces segments))
    (are' : Lexeme.Are ls' (symbolPiece "(" :: more)) :
    nameColon (ls ++ (ls' ++ rest)) = none := by
  obtain ⟨l, others, rfl, -, tail⟩ := exists_cons_of_are are
  have colon : ahead (Lexeme.isSymbol ":") (others ++ (ls' ++ rest)) = false := by
    cases segments with
    | nil =>
      rw [eq_nil_of_are tail, List.nil_append]
      exact notFollowed_of_mem (notFollowed_of_symbol (by decide) are') (List.mem_singleton_self _)
    | cons x segments =>
      have symbol := (path x List.mem_cons_self).1
      rw [List.mem_pair] at symbol
      have other : x.1 ∉ [":"] := by rcases symbol with h | h <;> rw [h] <;> decide
      exact notFollowed_of_mem (notFollowed_of_symbol other tail) (List.mem_singleton_self _)
  have refused : symbol ":" (others ++ (ls' ++ rest)) = none :=
    refuses_one (fun _ other => other) _ colon
  show (anyWord (l :: (others ++ (ls' ++ rest)))).bind (symbol ":") = none
  simp only [anyWord, one]
  split
  · exact refused
  · rfl

/-- The tags that an attribute gives. -/
def IsTagsOf (tags : List String) (a : List Piece × List (List Piece)) : Prop :=
  ∃ nameLexemes texts, Lexeme.Are nameLexemes a.1 ∧ List.Forall₂ IsTextOf texts a.2 ∧
    tags = tagsOf (written nameLexemes) texts

/-- An attribute in front of what may be further attributes. -/
theorem exists_attributeLists_cons {name : List Piece} {items : List (List Piece)}
    (isAttribute : IsAttribute name items) {ls : List Lexeme}
    (are : Lexeme.Are ls (attributePieces name items)) :
    ∃ tags, IsTagsOf tags (name, items) ∧ ∀ fuel rest, attributeLists (fuel + 1) (ls ++ rest) =
      (attributeLists fuel rest).map fun (more, rest) => (tags ++ more, rest) := by
  obtain ⟨⟨p, segments, rfl, word, path⟩, nonempty, each⟩ := isAttribute
  obtain ⟨l, more, rfl, is, are⟩ := exists_cons_of_are are
  obtain ⟨ls₁, ls₂, rfl, are₁, are₂⟩ := exists_append_of_are are
  have pieces : symbolPiece "(" :: (commaPieces items ++ [symbolPiece ")", symbolPiece "]"]) =
      (symbolPiece "(" :: (commaPieces items ++ [symbolPiece ")"])) ++ [symbolPiece "]"] := by
    simp
  rw [pieces] at are₂
  obtain ⟨ls₃, ls₄, rfl, are₃, are₄⟩ := exists_append_of_are are₂
  obtain ⟨m, none, rfl, is', are₅⟩ := exists_cons_of_are are₄
  obtain rfl := eq_nil_of_are are₅
  obtain ⟨lead, line, rfl⟩ : ∃ lead line, l = ⟨.symbol, "[".toList, lead, line⟩ :=
    exists_eq_of_is is
  obtain ⟨lead', line', rfl⟩ : ∃ lead line, m = ⟨.symbol, "]".toList, lead, line⟩ :=
    exists_eq_of_is is'
  obtain ⟨texts, texts_of, tail⟩ := exists_attributeTail nonempty each are₃
  refine ⟨_, ⟨ls₁, texts, are₁, texts_of, rfl⟩, fun fuel rest => ?_⟩
  have noColon : nameColon (ls₁ ++ (ls₃ ++ (⟨.symbol, "]".toList, lead', line'⟩ :: rest))) = none :=
    refuses_nameColon path are₁ are₃
  have ends : EndsPath (ls₃ ++ (⟨.symbol, "]".toList, lead', line'⟩ :: rest)) :=
    notFollowed_of_symbol (by decide) are₃
  have named := reads_qualifiedName word path ls₁ _ are₁ ends
  have items (n : Nat) : attributeItems (n + 1)
      (ls₁ ++ (ls₃ ++ (⟨.symbol, "]".toList, lead', line'⟩ :: rest))) =
        some (tagsOf (written ls₁) texts, rest) := by
    rw [attributeItems, named]
    simp only [consumed_append, tail]
    rfl
  have whole (m m' : Lexeme) : (m :: (ls₁ ++ (ls₃ ++ [m']))) ++ rest =
      m :: (ls₁ ++ (ls₃ ++ (m' :: rest))) := by
    simp
  have bracket : Lexeme.isSymbol "[" ⟨.symbol, "[".toList, lead, line⟩ = true := rfl
  rw [whole, attributeLists, if_pos bracket]
  simp only [noColon, Option.getD_none, items]

theorem attributeLists_of_notFollowed {rest : List Lexeme} (h : NotFollowed ["["] rest)
    (fuel : Nat) : attributeLists (fuel + 1) rest = some ([], rest) := by
  cases rest with
  | nil => rfl
  | cons l more =>
    have other : l.isSymbol "[" = false := notFollowed_of_mem h (List.mem_singleton_self _)
    rw [attributeLists, other, if_neg Bool.false_ne_true]

/-- Attributes, one after the other. -/
def attributeListPieces (as : List (List Piece × List (List Piece))) : List Piece :=
  as.flatMap fun a => attributePieces a.1 a.2

theorem exists_attributeLists {as : List (List Piece × List (List Piece))}
    (each : ∀ a ∈ as, IsAttribute a.1 a.2) {ls : List Lexeme}
    (are : Lexeme.Are ls (attributeListPieces as)) :
    ∃ tags, List.Forall₂ IsTagsOf tags as ∧ ∀ fuel rest, ls.length < fuel →
      NotFollowed ["["] rest → attributeLists fuel (ls ++ rest) = some (tags.flatten, rest) := by
  induction as generalizing ls with
  | nil =>
    refine ⟨[], .nil, fun fuel rest enough other => ?_⟩
    obtain ⟨fuel, rfl⟩ : ∃ n, fuel = n + 1 := ⟨fuel - 1, by omega⟩
    rw [eq_nil_of_are are]
    exact attributeLists_of_notFollowed other fuel
  | cons a as ih =>
    obtain ⟨first, each⟩ := List.forall_mem_cons.1 each
    obtain ⟨ls₁, ls₂, rfl, are₁, are₂⟩ := exists_append_of_are are
    obtain ⟨here, gives, step⟩ := exists_attributeLists_cons first are₁
    obtain ⟨tags, others, later⟩ := ih each are₂
    refine ⟨here :: tags, .cons gives others, fun fuel rest enough other => ?_⟩
    have longer : 0 < ls₁.length := by
      obtain ⟨l, more, rfl, -⟩ := exists_cons_of_are are₁
      exact Nat.succ_pos _
    rw [List.length_append] at enough
    obtain ⟨fuel, rfl⟩ : ∃ n, fuel = n + 1 := ⟨fuel - 1, by omega⟩
    rw [List.append_assoc, step, later fuel rest (by omega) other]
    rfl

/-! ## Tags -/

/-- What follows the last separator goes on with a text that has none. -/
theorem afterLast_append {sep : Char} {after : List Char} (h : sep ∉ after) (cs : List Char) :
    Text.afterLast sep (cs ++ after) = Text.afterLast sep cs ++ after := by
  cases split : Text.splitLast sep cs with
  | some sides =>
    obtain ⟨rfl, apart⟩ := Text.eq_append_of_splitLast split
    have whole := Text.splitLast_append sides.1 (List.not_mem_append apart h)
    rw [Text.afterLast, Text.afterLast, split, List.append_assoc, List.cons_append, whole]
  | none =>
    have whole := Text.splitLast_eq_none_iff.2
      (List.not_mem_append (Text.splitLast_eq_none_iff.1 split) h)
    rw [Text.afterLast, Text.afterLast, split, whole]

theorem written_append {l : Lexeme} (ls ms : List Lexeme) :
    written (l :: ls ++ ms) = written (l :: ls) ++ ms.flatMap fun m => m.lead ++ m.text := by
  simp [written]

/-- The last word of a path names an attribute when it stands directly behind a point. -/
theorem simpleAttributeName_written {p : Piece} {segments : List (String × Piece)}
    {name : List Char} (plain : '.' ∉ name ∧ ':' ∉ name) {ls : List Lexeme}
    (are : Lexeme.Are ls (p :: pathPieces (segments ++ [(".", ⟨.word, name, true⟩)]))) :
    simpleAttributeName (written ls) = dropEnding "Attribute".toList name := by
  have pieces : p :: pathPieces (segments ++ [(".", ⟨.word, name, true⟩)]) =
      (p :: pathPieces segments) ++ [symbolPiece ".", ⟨.word, name, true⟩] := by
    simp [pathPieces]
  rw [pieces] at are
  obtain ⟨ls₁, ls₂, rfl, are₁, are₂⟩ := exists_append_of_are are
  obtain ⟨l, more, rfl, -, -⟩ := exists_cons_of_are are₁
  obtain ⟨dot, others, rfl, isDot, are₃⟩ := exists_cons_of_are are₂
  obtain ⟨w, none, rfl, isWord, are₄⟩ := exists_cons_of_are are₃
  obtain rfl := eq_nil_of_are are₄
  have text : written (l :: more ++ [dot, w]) =
      (written (l :: more) ++ dot.lead) ++ '.' :: name := by
    rw [written_append]
    simp [isDot.text, symbolPiece, isWord.text, isWord.adjacent rfl]
  have noColon : ':' ∉ '.' :: name := by simp [plain.2]
  rw [simpleAttributeName, text, afterLast_append noColon, Text.afterLast,
    Text.splitLast_append _ plain.1]

theorem texts_eq_map {texts : List (List Char)} {arguments : List Piece}
    (h : List.Forall₂ IsTextOf texts (arguments.map fun p => [p])) :
    texts = arguments.map Piece.text := by
  induction arguments generalizing texts with
  | nil => exact List.forall₂_nil_right_iff.1 h
  | cons p arguments ih =>
    obtain ⟨text, others, first, later, rfl⟩ := List.forall₂_cons_right_iff.1 h
    rw [first p rfl, ih later, List.map_cons]

/-- The attribute that tags a method gives its arguments. -/
theorem tags_eq_of_isTagsOf {tags : List String} {p : Piece} {segments : List (String × Piece)}
    {arguments : List Piece}
    (h : IsTagsOf tags (p :: pathPieces (segments ++ [(".", ⟨.word, tagName, true⟩)]),
      arguments.map fun p => [p])) :
    tags = [tagOfArguments (arguments.map Piece.text)] := by
  obtain ⟨nameLexemes, texts, are, texts_of, rfl⟩ := h
  have name := simpleAttributeName_written (by decide) are
  have whole : dropEnding "Attribute".toList tagName = tagName := by decide
  rw [tagsOf, name, whole, texts_eq_map texts_of, if_pos (beq_self_eq_true _)]

end CallSiteIds.Source.Declaration
