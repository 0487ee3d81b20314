import CallSiteIds.Proofs.Source.Attributes

/-!
# Declarations over pieces

A member is read with its attributes and modifiers, and what is found in it does not depend on
what stands around it (`IsMember`).  Methods give their tags, constructors give nothing, and a
class gives what its members give.  A namespace is read as an item of a unit in the same way.
-/

set_option autoImplicit false

namespace CallSiteIds.Source.Declaration

open Grammar

/-! ## Modifiers -/

/-- A piece that is none of some words. -/
def Avoids (p : Piece) (ws : List String) : Prop :=
  ∀ l : Lexeme, l.Is p → l.isAnyOf ws = false

theorem isAnyOf_eq_false_mono {l : Lexeme} {ws vs : List String} (h : l.isAnyOf ws = false)
    (sub : ∀ v ∈ vs, v ∈ ws) : l.isAnyOf vs = false := by
  rw [Lexeme.isAnyOf, Bool.and_eq_false_iff, List.any_eq_false] at h ⊢
  exact h.imp_right fun each v mem => each v (sub v mem)

theorem isWord_eq_false_of_mem {l : Lexeme} {ws : List String} (h : l.isAnyOf ws = false)
    {w : String} (mem : w ∈ ws) : l.isWord w = false := by
  rw [isWord_eq_isAnyOf]
  exact isAnyOf_eq_false_mono h (List.forall_mem_singleton.2 mem)

section Modifiers

variable {l : Lexeme} {rest : List Lexeme}

theorem dropModifiers_modifier {w : String} (listed : w ∈ modifierWords) (other : w ≠ "extern")
    (is : l.Is (wordPiece w.toList)) : dropModifiers (l :: rest) = dropModifiers rest := by
  have notExtern : l.isWord "extern" = false := by
    rw [isWord_of_is is, decide_eq_false other]
  have modifier : l.isAnyOf modifierWords = true := by
    rw [isAnyOf_of_is is, decide_eq_true listed]
  rw [dropModifiers, notExtern, modifier]
  rfl

/-- Before another word, `file` is a modifier. -/
theorem dropModifiers_file (is : l.Is (wordPiece "file".toList))
    (word : ahead (fun t => t.kind == .word) rest = true) :
    dropModifiers (l :: rest) = dropModifiers rest := by
  have notExtern : l.isWord "extern" = false := by
    rw [isWord_of_is is]
    decide
  have notModifier : l.isAnyOf modifierWords = false := by
    rw [isAnyOf_of_is is]
    decide
  have contextual : l.isAnyOf contextualModifiers = true := by
    rw [isAnyOf_of_is is]
    decide
  rw [dropModifiers, notExtern, notModifier, contextual, word]
  rfl

theorem dropModifiers_eq_self
    (h : l.isAnyOf (modifierWords ++ contextualModifiers ++ ["ref"]) = false) :
    dropModifiers (l :: rest) = l :: rest := by
  have notExtern : l.isWord "extern" = false := isWord_eq_false_of_mem h (by decide)
  have notRef : l.isWord "ref" = false := isWord_eq_false_of_mem h (by decide)
  have notModifier : l.isAnyOf modifierWords = false :=
    isAnyOf_eq_false_mono h fun v mem => by simp [mem]
  have notContextual : l.isAnyOf contextualModifiers = false :=
    isAnyOf_eq_false_mono h fun v mem => by simp [mem]
  rw [dropModifiers, notExtern, notModifier, notContextual, notRef]
  rfl

end Modifiers

/-! ## Functions -/

theorem declines_constraints : Declines .constraints (Followed ["\x7b"]) := by
  apply declines_of_rule
  intro depth
  apply Refuses.then
  apply refuses_one
  intro rest right
  obtain ⟨t, mem, lead, line, more, rfl⟩ := exists_of_followed right
  rfl

theorem declines_parameters : Declines .parameters (NotFollowed ["("]) := by
  apply declines_of_rule
  intro depth
  exact (refuses_symbol "(").then

/-- Parameters in parentheses and a block. -/
def functionPieces (parameters : List (List Piece)) (block : List Piece) : List Piece :=
  symbolPiece "(" :: (commaPieces parameters ++ [symbolPiece ")"]) ++ block

/-- The parameters and the block of a function wherever one stands. -/
structure IsFunction (parameters : List (List Piece)) (block : List Piece) : Prop where
  nonempty : parameters ≠ []
  each : ∀ ps ∈ parameters, IsParameter ps
  begins : ∃ more, block = symbolPiece "\x7b" :: more
  takes : Takes .block block Anything

section Functions

variable {parameters : List (List Piece)} {block : List Piece}

theorem IsFunction.followed (h : IsFunction parameters block) {ls rest : List Lexeme}
    (are : Lexeme.Are ls block) : Followed ["\x7b"] (ls ++ rest) := by
  obtain ⟨more, rfl⟩ := h.begins
  exact followed_of_symbol (List.mem_singleton_self _) are

theorem IsFunction.reads_body (h : IsFunction parameters block) :
    Reads (memberBody phrase) block Anything := by
  intro ls rest are _
  have brace : ahead (Lexeme.isSymbol "\x7b") (ls ++ rest) = true :=
    ahead_of_followed (h.followed are)
  rw [memberBody, if_pos brace]
  exact h.takes.phrase (by decide) ls rest are trivial

/-- What follows the name of a function. -/
theorem IsFunction.reads_functionTail (h : IsFunction parameters block) :
    Reads (functionTail phrase) (functionPieces parameters block) Anything := by
  have noTypeParameters : Reads (typeParameters phrase) [] (NotFollowed ["<"]) :=
    (refuses_symbol "<").then.maybe
  have noConstraints : Reads (phrase (.many .constraints)) [] (Followed ["\x7b"]) :=
    (takes_many_nil declines_constraints).phrase (by decide)
  have listed := (takes_parameters h.nonempty h.each).phrase (by decide)
  have behind := noConstraints.then h.reads_body fun _ _ are _ => h.followed are
  have whole := noTypeParameters.then (listed.then behind fun _ _ _ _ => trivial)
    fun ls rest are _ => notFollowed_of_symbol (by decide) are
  rw [functionTail]
  simpa [functionPieces] using whole

end Functions

/-! ## Members -/

/-- What is found of a method, apart from its line. -/
def signature (m : TaggedMethod) : String × List String :=
  (m.name, m.tags)

/-- Pieces of a declaration behind its attributes and modifiers, and what is found in it when the
attributes give some tags. -/
structure IsDeclaration (ps : List Piece) (finds : List String → List (String × List String)) :
    Prop where
  begins : ∃ p more, ps = p :: more ∧ p.kind = .word ∧
    Avoids p (modifierWords ++ contextualModifiers ++ ["ref"])
  reads : ∀ ls, Lexeme.Are ls ps → ∀ fuel line tags rest, ps.length ≤ fuel →
    NotFollowed [";"] rest → ∃ found, found.map signature = finds tags ∧
      member (members fuel) line tags (ls ++ rest) = some (found, rest)

/-- Pieces of a member, and what is found in it. -/
structure IsMember (ps : List Piece) (signatures : List (String × List String)) : Prop where
  begins : ∃ p more, ps = p :: more ∧
    ∀ l : Lexeme, l.Is p → l.isSymbolOf ["\x7d", ";"] = false
  reads : ∀ ls, Lexeme.Are ls ps → ∀ fuel rest, ps.length ≤ fuel → NotFollowed [";"] rest →
    ∃ found, found.map signature = signatures ∧ members (fuel + 1) (ls ++ rest) =
      (members fuel rest).map fun (more, rest) => (found ++ more, rest)

/-- Modifiers that are dropped in front of a declaration. -/
def AreModifiers (ms : List Piece) : Prop :=
  (∀ p ∈ ms, p.kind = .word) ∧ ∀ ls l rest, Lexeme.Are ls ms → l.kind = .word →
    dropModifiers (ls ++ l :: rest) = dropModifiers (l :: rest)

/-- What attributes and words begin is neither a closing brace nor a semicolon. -/
theorem begins_member (as : List (List Piece × List (List Piece))) {ps : List Piece}
    (words : ∃ p more, ps = p :: more ∧ p.kind = .word) :
    ∃ p more, attributeListPieces as ++ ps = p :: more ∧
      ∀ l : Lexeme, l.Is p → l.isSymbolOf ["\x7d", ";"] = false := by
  cases as with
  | nil =>
    obtain ⟨p, more, rfl, word⟩ := words
    exact ⟨p, more, rfl, fun l is => isSymbolOf_of_word word is _⟩
  | cons a as =>
    refine ⟨_, _, rfl, fun l is => ?_⟩
    obtain ⟨lead, line, rfl⟩ := exists_eq_of_is is
    rfl

/-- A declaration with attributes and modifiers is a member. -/
theorem IsDeclaration.isMember {as : List (List Piece × List (List Piece))} {ms ps : List Piece}
    {finds : List String → List (String × List String)} {signatures : List (String × List String)}
    (declaration : IsDeclaration ps finds) (attributes : ∀ a ∈ as, IsAttribute a.1 a.2)
    (modifiers : AreModifiers ms)
    (gives : ∀ tags, List.Forall₂ IsTagsOf tags as → finds tags.flatten = signatures) :
    IsMember (attributeListPieces as ++ (ms ++ ps)) signatures := by
  obtain ⟨p, more, rfl, word, avoids⟩ := declaration.begins
  have words : ∃ q others, ms ++ p :: more = q :: others ∧ q.kind = .word := by
    cases ms with
    | nil => exact ⟨p, more, rfl, word⟩
    | cons q ms => exact ⟨q, _, rfl, modifiers.1 q List.mem_cons_self⟩
  have begins := begins_member as words
  refine ⟨begins, fun ls are fuel rest deep right => ?_⟩
  obtain ⟨q, others, same, visible⟩ := begins
  rw [same] at are
  obtain ⟨first, behind, rfl, is, -⟩ := exists_cons_of_are are
  have apart : NotFollowed ["\x7d", ";"] [first] := visible first is
  have noBrace : first.isSymbol "\x7d" = false := notFollowed_of_mem apart List.mem_cons_self
  rw [← same] at are
  obtain ⟨ls₁, ls₂, split, are₁, are₂⟩ := exists_append_of_are are
  obtain ⟨ls₃, ls₄, rfl, are₃, are₄⟩ := exists_append_of_are are₂
  obtain ⟨tags, tagged, lists⟩ := exists_attributeLists attributes are₁
  obtain ⟨found, signed, read⟩ := declaration.reads ls₄ are₄ fuel first.line tags.flatten rest
    (by simp only [List.length_append] at deep; omega) right
  refine ⟨found, signed.trans (gives tags tagged), ?_⟩
  have unbracketed : NotFollowed ["["] (ls₃ ++ (ls₄ ++ rest)) := by
    obtain ⟨q, others, same, word⟩ := words
    rw [same] at are₂
    rw [← List.append_assoc]
    exact notFollowed_of_word word are₂
  have dropped : dropModifiers (ls₃ ++ (ls₄ ++ rest)) = ls₄ ++ rest := by
    obtain ⟨l, tail, rfl, is, -⟩ := exists_cons_of_are are₄
    rw [List.cons_append, modifiers.2 ls₃ l _ are₃ (is.kind.trans word),
      dropModifiers_eq_self (avoids l is)]
  have listed := lists ((first :: behind ++ rest).length + 1) (ls₃ ++ (ls₄ ++ rest))
    (by rw [split]; simp only [List.length_append]; omega) unbracketed
  have whole : first :: behind ++ rest = ls₁ ++ (ls₃ ++ (ls₄ ++ rest)) := by
    rw [split]
    simp
  rw [← whole] at listed
  rw [List.cons_append] at listed ⊢
  rw [members, noBrace, if_neg Bool.false_ne_true, listed]
  simp only [dropped, read]

theorem areModifiers_nil : AreModifiers [] := by
  refine ⟨by simp, fun ls l rest are _ => ?_⟩
  rw [eq_nil_of_are are, List.nil_append]

theorem AreModifiers.cons {w : String} {ms : List Piece} (listed : w ∈ modifierWords)
    (other : w ≠ "extern") (later : AreModifiers ms) : AreModifiers (wordPiece w.toList :: ms) := by
  refine ⟨List.forall_mem_cons.2 ⟨rfl, later.1⟩, fun ls l rest are word => ?_⟩
  obtain ⟨m, more, rfl, is, others⟩ := exists_cons_of_are are
  rw [List.cons_append, dropModifiers_modifier listed other is, later.2 more l rest others word]

theorem AreModifiers.file {ms : List Piece} (later : AreModifiers ms) :
    AreModifiers (wordPiece "file".toList :: ms) := by
  refine ⟨List.forall_mem_cons.2 ⟨rfl, later.1⟩, fun ls l rest are word => ?_⟩
  obtain ⟨m, more, rfl, is, others⟩ := exists_cons_of_are are
  have next : ahead (fun t => t.kind == .word) (more ++ l :: rest) = true := by
    cases ms with
    | nil =>
      rw [eq_nil_of_are others]
      exact beq_iff_eq.2 word
    | cons q ms =>
      refine ahead_of_are (fun t is => ?_) others
      exact beq_iff_eq.2 (is.kind.trans (later.1 q List.mem_cons_self))
  rw [List.cons_append, dropModifiers_file is next, later.2 more l rest others word]

/-- Members before a closing brace, with what is found in all of them. -/
theorem exists_members {items : List (List Piece × List (String × List String))}
    (each : ∀ i ∈ items, IsMember i.1 i.2) {ls rest : List Lexeme}
    (are : Lexeme.Are ls (items.flatMap Prod.fst)) (right : Followed ["\x7d"] rest) {fuel : Nat}
    (deep : (items.flatMap Prod.fst).length < fuel) :
    ∃ found, found.map signature = items.flatMap Prod.snd ∧
      members fuel (ls ++ rest) = some (found, rest) := by
  induction items generalizing ls fuel with
  | nil =>
    obtain ⟨fuel, rfl⟩ : ∃ n, fuel = n + 1 := ⟨fuel - 1, by omega⟩
    refine ⟨[], rfl, ?_⟩
    have brace := ahead_of_followed right
    obtain ⟨t, mem, lead, line, more, rfl⟩ := exists_of_followed right
    have closes : Lexeme.isSymbol "\x7d" ⟨.symbol, t.toList, lead, line⟩ = true := brace
    rw [eq_nil_of_are are, List.nil_append, members, if_pos closes]
  | cons i items ih =>
    obtain ⟨first, each⟩ := List.forall_mem_cons.1 each
    rw [List.flatMap_cons] at are deep
    obtain ⟨ls₁, ls₂, rfl, are₁, are₂⟩ := exists_append_of_are are
    rw [List.length_append] at deep
    have longer : 0 < i.1.length := by
      obtain ⟨p, more, same, -⟩ := first.begins
      rw [same]
      exact Nat.succ_pos _
    obtain ⟨fuel, rfl⟩ : ∃ n, fuel = n + 1 := ⟨fuel - 1, by omega⟩
    have open_ : NotFollowed [";"] (ls₂ ++ rest) := by
      cases items with
      | nil =>
        rw [eq_nil_of_are are₂]
        exact notFollowed_of_followed right (by decide)
      | cons j items =>
        obtain ⟨p, more, same, visible⟩ := (each j List.mem_cons_self).begins
        rw [List.flatMap_cons, same] at are₂
        exact notFollowed_mono (ahead_of_are visible are₂) (by decide)
    obtain ⟨found, signed, read⟩ := first.reads ls₁ are₁ fuel (ls₂ ++ rest) (by omega) open_
    obtain ⟨others, signed', later⟩ := ih each are₂ (show _ < fuel by omega)
    refine ⟨found ++ others, ?_, ?_⟩
    · rw [List.map_append, signed, signed', List.flatMap_cons]
    · rw [List.append_assoc, read, later]
      rfl

/-! ## Methods and constructors -/

/-- The words that begin members other than methods. -/
def declaringWords : List String :=
  ["namespace", "using", "enum", "delegate"] ++ typeWords ++
    ["event", "const", "implicit", "explicit", "extern", "record"]

theorem memberName_eq {l : Lexeme} {rest : List Lexeme} (word : l.kind = .word)
    (other : NotFollowed ["<", "."] rest) (fuel : Nat) :
    memberName (fuel + 1) (l :: rest) = some (l, rest) := by
  have noArguments : phrase .typeArguments rest = none :=
    declines_typeArguments.phrase rest (notFollowed_mono other (by decide))
  have refused : Refuses (symbol ".") (NotFollowed ["<", "."]) :=
    refuses_one fun _ h => notFollowed_of_mem h (by decide)
  have noPoint : symbol "." rest = none := refused rest other
  simp [memberName, word, noArguments, noPoint]

/-- What is neither a constructor nor a declaration of another kind begins with its type. -/
theorem member_eq_typedMember {inside : List Lexeme → Found} {line : Nat} {tags : List String}
    {l : Lexeme} {rest : List Lexeme} (word : l.kind = .word)
    (apart : l.isAnyOf declaringWords = false) (noCall : NotFollowed ["("] rest)
    (noImport : ahead (Lexeme.isWord "using") rest = false) :
    member inside line tags (l :: rest) = typedMember line tags (l :: rest) := by
  have noWord {w : String} (mem : w ∈ declaringWords) : l.isWord w = false :=
    isWord_eq_false_of_mem apart mem
  have noWords {ws : List String} (sub : ∀ w ∈ ws, w ∈ declaringWords) : l.isAnyOf ws = false :=
    isAnyOf_eq_false_mono apart sub
  have noTilde : l.isSymbol "~" = false := by
    rw [Lexeme.isSymbol, word]
    rfl
  have noParenthesis : ahead (Lexeme.isSymbol "(") rest = false :=
    notFollowed_of_mem noCall (List.mem_singleton_self _)
  have outer : outerDeclaration inside (l :: rest) = none := by
    unfold outerDeclaration
    simp (disch := decide +kernel) only [noWord, noWords, noImport, Bool.and_false,
      Bool.false_and, Bool.false_eq_true, if_false]
  unfold member
  simp (disch := decide +kernel) only [noWord, noWords, noTilde, noParenthesis, outer,
    Bool.and_false, Bool.false_eq_true, if_false]

/-- A type, a name, parameters and a block. -/
def methodPieces (core : List Piece) (nullable : Bool) (name : Piece)
    (parameters : List (List Piece)) (block : List Piece) : List Piece :=
  core ++ markPieces nullable ++ name :: functionPieces parameters block

/-- What follows the first word of a type and goes on with a name. -/
theorem notFollowed_of_type {segments : List (String × Piece)} (path : IsPath segments)
    (nullable : Bool) {name : Piece} (free : IsFree name) {more : List Piece}
    {ls : List Lexeme}
    (are : Lexeme.Are ls (pathPieces segments ++ (markPieces nullable ++ name :: more)))
    (rest : List Lexeme) :
    NotFollowed ["("] (ls ++ rest) ∧ ahead (Lexeme.isWord "using") (ls ++ rest) = false := by
  have symbolCase {s : String} {qs : List Piece} (other : s ∉ ["("])
      (are : Lexeme.Are ls (symbolPiece s :: qs)) :
      NotFollowed ["("] (ls ++ rest) ∧ ahead (Lexeme.isWord "using") (ls ++ rest) = false := by
    refine ⟨notFollowed_of_symbol other are, ahead_of_are (fun l is => ?_) are⟩
    obtain ⟨lead, line, rfl⟩ := exists_eq_of_is is
    rfl
  cases segments with
  | nil =>
    cases nullable with
    | true => exact symbolCase (by decide) are
    | false =>
      refine ⟨notFollowed_of_word free.word are, ahead_of_are (fun l is => ?_) are⟩
      exact isWord_of_isFree free is (by decide)
  | cons x segments =>
    have symbol := (path x List.mem_cons_self).1
    rw [List.mem_pair] at symbol
    have other : x.1 ∉ ["("] := by rcases symbol with h | h <;> rw [h] <;> decide
    exact symbolCase other are

section Methods

variable {core : List Piece} {name : Piece} {parameters : List (List Piece)} {block : List Piece}

/-- A method is read with its name and its tags. -/
theorem typedMember_method (named : IsTypeName core) (nullable : Bool) (free : IsFree name)
    (function : IsFunction parameters block) {ls : List Lexeme}
    (are : Lexeme.Are ls (methodPieces core nullable name parameters block)) (line : Nat)
    (tags : List String) (rest : List Lexeme) :
    typedMember line tags (ls ++ rest) =
      some (if tags.isEmpty then [] else [⟨String.ofList name.text, line, tags⟩], rest) := by
  obtain ⟨ls₁, ls₂, rfl, are₁, are₂⟩ := exists_append_of_are are
  have typed := (takes_type named nullable).phrase (by decide) ls₁ (ls₂ ++ rest) are₁
    (notFollowed_of_word free.word are₂)
  obtain ⟨n, more, rfl, is, are₃⟩ := exists_cons_of_are are₂
  have notOperator : ahead (Lexeme.isWord "operator") (n :: (more ++ rest)) = false :=
    isWord_of_isFree free is (by decide)
  have parenthesis : Followed ["("] (more ++ rest) :=
    followed_of_symbol (List.mem_singleton_self _) are₃
  have memberNamed := memberName_eq (is.kind.trans free.word)
    (notFollowed_of_followed parenthesis (by decide)) (more ++ rest).length
  have opens : ahead (Lexeme.isSymbolOf ["(", "<"]) (more ++ rest) = true :=
    followed_mono parenthesis (by decide)
  have tail := function.reads_functionTail more rest are₃ trivial
  rw [List.append_assoc]
  rw [List.cons_append] at typed ⊢
  rw [typedMember, typed]
  simp only [notOperator, Bool.false_eq_true, if_false, List.length_cons, memberNamed, opens,
    if_true, tail, Option.map_some, is.text]

theorem isDeclaration_method (named : IsTypeName core) (nullable : Bool) (free : IsFree name)
    (function : IsFunction parameters block) :
    IsDeclaration (methodPieces core nullable name parameters block) fun tags =>
      if tags.isEmpty then [] else [(String.ofList name.text, tags)] := by
  obtain ⟨p, segments, same, word, path, avoids⟩ := named.exists_path
  have pieces : methodPieces core nullable name parameters block =
      p :: (pathPieces segments ++
        (markPieces nullable ++ name :: functionPieces parameters block)) := by
    simp [methodPieces, same]
  refine ⟨⟨p, _, pieces, word, fun l is => avoids l is _ (by decide +kernel)⟩, ?_⟩
  intro ls are fuel line tags rest _ _
  have read := typedMember_method named nullable free function are line tags rest
  refine ⟨if tags.isEmpty then [] else [⟨String.ofList name.text, line, tags⟩], ?_, ?_⟩
  · split <;> rfl
  · rw [pieces] at are
    obtain ⟨l, more, rfl, is, are'⟩ := exists_cons_of_are are
    obtain ⟨noCall, noImport⟩ := notFollowed_of_type path nullable free are' rest
    rw [List.cons_append] at read ⊢
    rw [member_eq_typedMember (is.kind.trans word) (avoids l is _ (by decide +kernel)) noCall
      noImport, read]

theorem reads_constructorTail (word : name.kind = .word)
    (function : IsFunction parameters block) :
    Reads constructorTail (name :: functionPieces parameters block) Anything := by
  have noInitializer : Reads (maybe (symbol ":" >=> one (Lexeme.isAnyOf ["base", "this"]) >=>
      phrase .arguments)) [] (Followed ["\x7b"]) :=
    (refuses_symbol_of_followed (by decide)).then.maybe
  have listed := (takes_parameters function.nonempty function.each).phrase (by decide)
  have behind := noInitializer.then function.reads_body fun _ _ are _ => function.followed are
  have whole := (reads_anyWord word : Reads _ _ Anything).then
    (listed.then behind fun _ _ _ _ => trivial) fun _ _ _ _ => trivial
  rw [constructorTail, bodyTail]
  simpa [functionPieces] using whole

/-- A constructor gives nothing. -/
theorem isDeclaration_constructor (free : IsFree name) (function : IsFunction parameters block) :
    IsDeclaration (name :: functionPieces parameters block) fun _ => [] where
  begins := ⟨name, _, rfl, free.word, fun l is => isAnyOf_of_isFree free is (by decide +kernel)⟩
  reads := by
    intro ls are fuel line tags rest _ _
    refine ⟨[], rfl, ?_⟩
    have read := reads_constructorTail free.word function ls rest are trivial
    obtain ⟨l, more, rfl, is, tail⟩ := exists_cons_of_are are
    have noWord {w : String} (known : w ∈ meaningfulWords) : l.isWord w = false :=
      isWord_of_isFree free is known
    have noWords {ws : List String} (known : ∀ w ∈ ws, w ∈ meaningfulWords) :
        l.isAnyOf ws = false := isAnyOf_of_isFree free is known
    have noTilde : l.isSymbol "~" = false := isSymbol_of_word free.word is "~"
    have named : l.isName = true := isName_of_isFree free is
    have parenthesis : ahead (Lexeme.isSymbol "(") (more ++ rest) = true :=
      ahead_of_followed (followed_of_symbol (List.mem_singleton_self _) tail)
    rw [List.cons_append] at read ⊢
    unfold member
    simp (disch := decide +kernel) only [noWord, noWords, noTilde, named, parenthesis,
      Bool.and_self, Bool.false_eq_true, if_false, if_true, read, plain, Option.map_some]

end Methods

/-! ## Classes and namespaces -/

/-- The classes that another builds on. -/
def IsBase (ps : List Piece) : Prop :=
  ps = [] ∨ ∃ p segments, ps = symbolPiece ":" :: p :: pathPieces segments ∧ IsFree p ∧
    IsPath segments

theorem takes_baseType {p : Piece} {segments : List (String × Piece)} (free : IsFree p)
    (path : IsPath segments) :
    Takes (.commaList .baseType) (p :: pathPieces segments) (Followed ["\x7b"]) := by
  have typed := takes_type (.path free path) false
  rw [markPieces, if_neg Bool.false_ne_true, List.append_nil] at typed
  have noArguments : Declines .arguments (Followed ["\x7b"]) := by
    apply declines_of_rule
    intro depth
    exact (refuses_symbol_of_followed (by decide)).then
  have base : Takes .baseType (p :: pathPieces segments) (Followed ["\x7b"]) := by
    apply takes_of_rule
    intro depth deep
    have whole := (typed depth (by simp only [rank] at deep ⊢; omega)).then
      (noArguments depth).maybe fun ls rest are right => by
        rw [eq_nil_of_are are]
        exact notFollowed_of_followed right (by decide)
    rwa [List.append_nil] at whole
  apply takes_of_rule
  intro depth deep ls rest are right
  have read := base depth (by simp only [rank] at deep ⊢; omega) ls rest are right
  obtain ⟨lead, line, more, rfl⟩ := exists_of_followed_singleton right
  show commaListRule (readWithin depth) .baseType _ = _
  rw [commaListRule, read]
  rfl

theorem reads_typeHead {name : Piece} (word : name.kind = .word) {base : List Piece}
    (isBase : IsBase base) : Reads typeHead (name :: base) (Followed ["\x7b"]) := by
  have other {s : String} (apart : s ∉ ["\x7b", ":"]) {rest : List Lexeme}
      (right : Followed ["\x7b", ":"] rest) : NotFollowed [s] rest :=
    notFollowed_of_followed right fun t mem same => apart (List.mem_singleton.1 same ▸ mem)
  have noTypeParameters : Reads (typeParameters phrase) [] (Followed ["\x7b", ":"]) := by
    apply Refuses.maybe
    exact (refuses_symbol_of_followed (by decide)).then
  have noParameters : Reads (maybe (phrase .parameters)) [] (Followed ["\x7b", ":"]) := by
    apply Refuses.maybe
    intro rest right
    exact declines_parameters.phrase rest (other (by decide) right)
  have noConstraints : Reads (phrase (.many .constraints)) [] (Followed ["\x7b"]) :=
    (takes_many_nil declines_constraints).phrase (by decide)
  have bases : Reads (maybe (symbol ":" >=> phrase (.commaList .baseType))) base
      (Followed ["\x7b"]) := by
    obtain rfl | ⟨p, segments, rfl, free, path⟩ := isBase
    · exact (refuses_symbol_of_followed (by decide)).then.maybe
    · exact (((takes_baseType free path).phrase (by decide)).behind ":").maybe
  have behind := bases.then noConstraints fun ls rest are right => by
    rwa [eq_nil_of_are are]
  have begins : ∀ ls rest, Lexeme.Are ls (base ++ []) → Followed ["\x7b"] rest →
      Followed ["\x7b", ":"] (ls ++ rest) := by
    intro ls rest are right
    rw [List.append_nil] at are
    obtain rfl | ⟨p, segments, rfl, -, -⟩ := isBase
    · rw [eq_nil_of_are are]
      exact followed_mono right (by decide)
    · exact followed_of_symbol (by decide) are
  have whole := (reads_anyWord word : Reads _ _ Anything).then
    (noTypeParameters.then (noParameters.then behind begins) begins) fun _ _ _ _ => trivial
  rw [List.append_nil] at whole
  exact whole

/-- Pieces of a class with its members. -/
def classPieces (name : Piece) (base contents : List Piece) : List Piece :=
  wordPiece "class".toList :: name :: base ++
    symbolPiece "\x7b" :: (contents ++ [symbolPiece "\x7d"])

/-- Members in braces are read with what is found in all of them. -/
theorem exists_membersInBraces {items : List (List Piece × List (String × List String))}
    (each : ∀ i ∈ items, IsMember i.1 i.2) {ls rest : List Lexeme}
    (are : Lexeme.Are ls (symbolPiece "\x7b" :: (items.flatMap Prod.fst ++ [symbolPiece "\x7d"])))
    (right : NotFollowed [";"] rest) {fuel : Nat} (deep : (items.flatMap Prod.fst).length < fuel) :
    ∃ found, found.map signature = items.flatMap Prod.snd ∧
      membersInBraces (members fuel) (ls ++ rest) = some (found, rest) := by
  obtain ⟨l, more, rfl, is, are⟩ := exists_cons_of_are are
  obtain ⟨ls₁, ls₂, rfl, are₁, are₂⟩ := exists_append_of_are are
  have followed : Followed ["\x7d"] (ls₂ ++ rest) :=
    followed_of_symbol (List.mem_singleton_self _) are₂
  obtain ⟨found, signed, read⟩ := exists_members each are₁ followed deep
  refine ⟨found, signed, ?_⟩
  have opens : symbol "\x7b" (l :: (ls₁ ++ (ls₂ ++ rest))) = some (ls₁ ++ (ls₂ ++ rest)) :=
    (reads_symbol "\x7b" : Reads _ _ Anything) [l] _ (.cons is .nil) trivial
  have noSemicolon : Reads (maybe (symbol ";")) [] (NotFollowed [";"]) :=
    (refuses_symbol ";").maybe
  have closes := (reads_symbol "\x7d").then noSemicolon
    (fun ls rest are right => by rwa [eq_nil_of_are are]) ls₂ rest are₂ right
  rw [List.cons_append, List.append_assoc, membersInBraces, opens]
  simp only [read, closes, Option.map_some]

/-- A class gives what its members give. -/
theorem isDeclaration_class {name : Piece} (word : name.kind = .word) {base : List Piece}
    (isBase : IsBase base) {items : List (List Piece × List (String × List String))}
    (each : ∀ i ∈ items, IsMember i.1 i.2) :
    IsDeclaration (classPieces name base (items.flatMap Prod.fst)) fun _ =>
      items.flatMap Prod.snd where
  begins := ⟨_, _, rfl, rfl, fun l is => by
    rw [isAnyOf_of_is is]
    decide⟩
  reads := by
    intro ls are fuel line tags rest deep right
    simp only [classPieces, List.length_append, List.length_cons, List.length_nil] at deep
    obtain ⟨l, more, rfl, is, are⟩ := exists_cons_of_are are
    obtain ⟨ls₁, ls₂, rfl, are₁, are₂⟩ := exists_append_of_are are
    obtain ⟨found, signed, read⟩ := exists_membersInBraces each are₂ right
      (show _ < fuel by omega)
    refine ⟨found, signed, ?_⟩
    have followed : Followed ["\x7b"] (ls₂ ++ rest) :=
      followed_of_symbol (List.mem_singleton_self _) are₂
    have head := reads_typeHead word isBase ls₁ (ls₂ ++ rest) are₁ followed
    have noSemicolon : ahead (Lexeme.isSymbol ";") (ls₂ ++ rest) = false :=
      notFollowed_of_mem (notFollowed_of_followed followed (by decide)) (List.mem_singleton_self _)
    obtain ⟨lead, here, rfl⟩ := exists_eq_of_is is
    show typeTail (members fuel) (ls₁ ++ ls₂ ++ rest) = _
    rw [List.append_assoc, typeTail, head]
    simp only [noSemicolon, Bool.false_eq_true, if_false, read]

/-- Pieces of a namespace with its member. -/
def namespacePieces (path contents : List Piece) : List Piece :=
  wordPiece "namespace".toList :: path ++ symbolPiece "\x7b" :: (contents ++ [symbolPiece "\x7d"])

/-- Pieces of an item of a unit, and what is found in it. -/
structure IsUnitItem (ps : List Piece) (signatures : List (String × List String)) : Prop where
  begins : ∃ p more, ps = p :: more ∧ p.kind = .word
  reads : ∀ ls, Lexeme.Are ls ps → ∀ fuel rest, ps.length ≤ fuel → NotFollowed [";"] rest →
    ∃ found, found.map signature = signatures ∧
      unitItems (fuel + 1) (ls ++ rest) = (unitItems fuel rest).map (found ++ ·)

theorem isUnitAttribute_cons_eq_false {l : Lexeme} (other : l.isSymbol "[" = false)
    (rest : List Lexeme) : isUnitAttribute (l :: rest) = false := by
  unfold isUnitAttribute
  split
  · rename_i same
    obtain ⟨rfl, -⟩ := List.cons.inj same
    rw [other]
    rfl
  · rfl

/-- Behind its word a namespace has a name and one member in braces. -/
theorem exists_namespaceTail {p : Piece} {segments : List (String × Piece)} (word : p.kind = .word)
    (path : IsPath segments) {ps : List Piece} {signatures : List (String × List String)}
    (isMember : IsMember ps signatures) {ls rest : List Lexeme}
    (are : Lexeme.Are ls
      (p :: pathPieces segments ++ symbolPiece "\x7b" :: (ps ++ [symbolPiece "\x7d"])))
    (right : NotFollowed [";"] rest) {fuel : Nat} (deep : ps.length < fuel) :
    ∃ found, found.map signature = signatures ∧
      namespaceTail (members fuel) (ls ++ rest) = some (found, rest) := by
  have each : ∀ i ∈ [(ps, signatures)], IsMember i.1 i.2 := List.forall_mem_singleton.2 isMember
  have contents : ps = [(ps, signatures)].flatMap Prod.fst := by simp
  obtain ⟨ls₁, ls₂, rfl, are₁, are₂⟩ := exists_append_of_are are
  rw [contents] at are₂
  obtain ⟨found, signed, read⟩ := exists_membersInBraces each are₂ right
    (by rw [← contents]; exact deep)
  refine ⟨found, by simpa using signed, ?_⟩
  have followed : Followed ["\x7b"] (ls₂ ++ rest) :=
    followed_of_symbol (List.mem_singleton_self _) are₂
  have named := reads_qualifiedName word path ls₁ (ls₂ ++ rest) are₁
    (notFollowed_of_followed followed (by decide))
  have noSemicolon : ahead (Lexeme.isSymbol ";") (ls₂ ++ rest) = false :=
    notFollowed_of_mem (notFollowed_of_followed followed (by decide)) (List.mem_singleton_self _)
  rw [List.append_assoc, namespaceTail, qualifiedName, named]
  simp only [noSemicolon, Bool.false_eq_true, if_false, read]

/-- A namespace gives what its member gives. -/
theorem isUnitItem_namespace {p : Piece} {segments : List (String × Piece)}
    (word : p.kind = .word) (path : IsPath segments) {ps : List Piece}
    {signatures : List (String × List String)} (isMember : IsMember ps signatures) :
    IsUnitItem (namespacePieces (p :: pathPieces segments) ps) signatures where
  begins := ⟨_, _, rfl, rfl⟩
  reads := by
    intro ls are fuel rest deep right
    simp only [namespacePieces, List.length_append, List.length_cons, List.length_nil] at deep
    have unbracketed : NotFollowed ["["] (ls ++ rest) := notFollowed_of_word rfl are
    obtain ⟨l, more, rfl, is, are⟩ := exists_cons_of_are are
    obtain ⟨found, signed, tail⟩ := exists_namespaceTail word path isMember are right
      (show _ < fuel by omega)
    refine ⟨found, signed, ?_⟩
    have noModifier : l.isAnyOf (modifierWords ++ contextualModifiers ++ ["ref"]) = false := by
      rw [isAnyOf_of_is is]
      decide
    have noBracket : l.isSymbol "[" = false := isSymbol_of_word rfl is "["
    rw [List.cons_append] at unbracketed ⊢
    have declared : unitDeclaration fuel (l :: (more ++ rest)) = some (found, rest) := by
      rw [unitDeclaration, attributeLists_of_notFollowed unbracketed]
      simp only [dropModifiers_eq_self noModifier]
      obtain ⟨lead, line, rfl⟩ := exists_eq_of_is is
      exact tail
    rw [unitItems]
    simp only [List.isEmpty_cons, isUnitAttribute_cons_eq_false noBracket, declared,
      Bool.false_eq_true, if_false, Option.orElse_some]

/-- A unit gives what its items give. -/
theorem exists_unitItems {items : List (List Piece × List (String × List String))}
    (each : ∀ i ∈ items, IsUnitItem i.1 i.2) {ls : List Lexeme}
    (are : Lexeme.Are ls (items.flatMap Prod.fst)) {fuel : Nat}
    (deep : (items.flatMap Prod.fst).length < fuel) :
    ∃ found, found.map signature = items.flatMap Prod.snd ∧ unitItems fuel ls = some found := by
  induction items generalizing ls fuel with
  | nil =>
    obtain ⟨fuel, rfl⟩ : ∃ n, fuel = n + 1 := ⟨fuel - 1, by omega⟩
    rw [eq_nil_of_are are]
    exact ⟨[], rfl, rfl⟩
  | cons i items ih =>
    obtain ⟨first, each⟩ := List.forall_mem_cons.1 each
    rw [List.flatMap_cons] at are deep
    obtain ⟨ls₁, ls₂, rfl, are₁, are₂⟩ := exists_append_of_are are
    rw [List.length_append] at deep
    have longer : 0 < i.1.length := by
      obtain ⟨p, more, same, -⟩ := first.begins
      rw [same]
      exact Nat.succ_pos _
    obtain ⟨fuel, rfl⟩ : ∃ n, fuel = n + 1 := ⟨fuel - 1, by omega⟩
    have next : NotFollowed [";"] ls₂ := by
      cases items with
      | nil =>
        rw [eq_nil_of_are are₂]
        rfl
      | cons j items =>
        obtain ⟨p, more, same, word⟩ := (each j List.mem_cons_self).begins
        rw [List.flatMap_cons, same] at are₂
        have apart : NotFollowed [";"] (ls₂ ++ []) := notFollowed_of_word word are₂
        rwa [List.append_nil] at apart
    obtain ⟨found, signed, read⟩ := first.reads ls₁ are₁ fuel ls₂ (by omega) next
    obtain ⟨others, signed', later⟩ := ih each are₂ (show _ < fuel by omega)
    refine ⟨found ++ others, ?_, ?_⟩
    · rw [List.map_append, signed, signed', List.flatMap_cons]
    · rw [read, later, Option.map_some]

end CallSiteIds.Source.Declaration
