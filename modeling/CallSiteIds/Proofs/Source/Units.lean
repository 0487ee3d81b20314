import CallSiteIds.Proofs.Source.AttributeDeclaration

/-!
# Generated files are read back

A file of plain routines is cut into a namespace with one class, and every routine is a member of
that class in which its name and its tag are found.  So the tagged methods of the file are its
routines, in order, and the file is well formed (`exists_taggedMethods`).  Nothing is found in the
declaration of the tag attribute.
-/

set_option autoImplicit false

namespace CallSiteIds.Source

open Grammar Declaration

/-! ## Tags -/

/-- Arguments of one piece each, up to the closing parenthesis. -/
def argumentPieces (ps : List Piece) : List Piece :=
  commaPieces (ps.map fun p => [p]) ++ [symbolPiece ")"]

/-- The arguments of a tag are expressions of one piece, with one blank behind each comma. -/
def IsTagArguments (arguments : String) : Prop :=
  ∃ ps : List Piece, ps ≠ [] ∧ (∀ p ∈ ps, IsExpression [p]) ∧
    (∃ inside, arguments = "(" ++ inside ∧ Lexes inside (argumentPieces ps)) ∧
    tagOfArguments (ps.map Piece.text) = arguments

/-- The arguments of a tag are read back as they are, unless they hold a null character. -/
theorem isTagArguments_tagArguments (path : String) (line column : Nat) {data : Option String}
    (whole : data = none → '\x00' ∉ path.toList) :
    IsTagArguments (tagArguments path line column data) := by
  have one : Decimal.naturalText 1 = ['1'] := by decide
  have number (n : Nat) : IsExpression [numberPiece n] := (isOperand_number n).isExpression
  have text (cs : List Char) : IsExpression [textPiece cs] := (isOperand_text cs).isExpression
  cases data with
  | some data =>
    refine ⟨[numberPiece 1, textPiece (regularLiteral data.toList)], by simp, ?_,
      ⟨"1, " ++ String.ofList (regularLiteral data.toList) ++ ")", ?_, ?_⟩, ?_⟩
    · simp only [List.forall_mem_cons]
      exact ⟨number 1, text _, by simp⟩
    · simp [tagArguments, ← String.toList_inj]
    · intro rest qs _ later
      have closes : Cuts (')' :: _) _ := later.firm (s := ")") (by decide)
      have literal := closes.regular data.toList (stops_cons (by decide) _)
      have comma : Cuts (',' :: _) _ := literal.blank.firm (s := ",") (by decide)
      have first := comma.number 1 (.inl rfl)
      rw [one] at first
      simpa [argumentPieces, commaPieces] using first
    · simp [tagOfArguments, numberPiece, textPiece, one, tagArguments, ← String.toList_inj]
  | none =>
    refine ⟨[textPiece (verbatimLiteral path.toList), numberPiece line, numberPiece column],
      by simp, ?_, ⟨String.ofList (verbatimLiteral path.toList) ++ ", " ++
        Decimal.integerString line ++ ", " ++ Decimal.integerString column ++ ")", ?_, ?_⟩, ?_⟩
    · simp only [List.forall_mem_cons]
      exact ⟨text _, number line, number column, by simp⟩
    · simp [tagArguments, ← String.toList_inj]
    · intro rest qs _ later
      have closes : Cuts (')' :: _) _ := later.firm (s := ")") (by decide)
      have columns := (closes.number column (.inr rfl)).blank
      have comma : Cuts (',' :: _) _ := columns.firm (s := ",") (by decide)
      have lines := (comma.number line (.inl rfl)).blank
      have comma' : Cuts (',' :: _) _ := lines.firm (s := ",") (by decide)
      have literal := comma'.verbatim (whole rfl) (stops_cons (by decide) _)
      simpa [argumentPieces, commaPieces, Decimal.integerString, Decimal.integerText] using literal
    · simp [tagOfArguments, numberPiece, textPiece, tagArguments, Decimal.integerString,
        Decimal.integerText, ← String.toList_inj]

/-- The pieces of the name of the tag attribute. -/
def tagSegments : List (String × Piece) :=
  ("::", wordPiece "System".toList) :: pointed ["Runtime", "CompilerServices"]

/-- The tag attribute with its arguments. -/
def tagAttributes (ps : List Piece) : List (List Piece × List (List Piece)) :=
  [(wordPiece "global".toList :: pathPieces (tagSegments ++ [(".", ⟨.word, tagName, true⟩)]),
    ps.map fun p => [p])]

/-- A tag is cut into the tag attribute. -/
theorem lexes_tag {inside : String} {ps : List Piece} (lexes : Lexes inside (argumentPieces ps)) :
    Lexes ("[" ++ tagAttribute ++ ("(" ++ inside) ++ "]")
      (attributeListPieces (tagAttributes ps)) := by
  have name : tagAttribute = "global::" ++ ".".intercalate
      ["System", "Runtime", "CompilerServices", "InterceptsLocation"] := by decide +kernel
  have named : Lexes tagAttribute
      (wordPiece "global".toList ::
        pathPieces (tagSegments ++ [(".", ⟨.word, tagName, true⟩)])) := by
    rw [name]
    exact lexes_global (by decide +kernel)
  intro rest qs _ later
  have closes : Cuts (']' :: _) _ := later.firm (s := "]") (by decide)
  have opens : Cuts ('(' :: _) _ :=
    (lexes _ _ (stops_cons (by decide) _) closes).firm (s := "(") (by decide)
  have attributed := named _ _ (stops_cons (by decide) _) opens
  have whole : Cuts ('[' :: _) _ := attributed.firm (s := "[") (by decide)
  simpa [attributeListPieces, tagAttributes, attributePieces, argumentPieces] using whole

/-- The tag attribute gives the arguments of the tag. -/
theorem isAttribute_tag {ps : List Piece} (nonempty : ps ≠ [])
    (each : ∀ p ∈ ps, IsExpression [p]) : ∀ a ∈ tagAttributes ps, IsAttribute a.1 a.2 := by
  refine List.forall_mem_singleton.2 ⟨⟨_, _, rfl, rfl, ?_⟩, by simpa using nonempty, ?_⟩
  · intro x mem
    rcases List.mem_append.1 mem with mem | mem
    · exact isPath_global _ x mem
    · rw [List.mem_singleton.1 mem]
      exact ⟨List.mem_cons_self, rfl⟩
  · intro qs mem
    obtain ⟨p, inside, rfl⟩ := List.mem_map.1 mem
    exact each p inside

/-! ## Routines -/

/-- A routine whose names are plain, with a tag that can be read back. -/
structure Routine.IsPlain (r : Routine) : Prop where
  name : IsPlainName r.name
  returnType : IsPlainType r.returnType
  nonempty : r.parameters ≠ []
  parameters : ∀ t ∈ r.parameters, IsWrittenAs IsParameter t
  body : r.body.IsPlain
  tag : ∃ arguments, r.tag = "[" ++ tagAttribute ++ arguments ++ "]" ∧ IsTagArguments arguments

/-- A routine and what is found of it: its name and the arguments of its tag. -/
def Routine.IsFoundAs (r : Routine) (found : String × List String) : Prop :=
  ∃ arguments, r.tag = "[" ++ tagAttribute ++ arguments ++ "]" ∧ found = (r.name, [arguments])

/-- The first line of a routine after its tag is cut into the head of a method. -/
theorem lexes_signature {r : Routine} (plain : r.IsPlain) :
    ∃ core nullable parameters, IsTypeName core ∧ parameters ≠ [] ∧
      (∀ ps ∈ parameters, IsParameter ps) ∧ Lexes r.signature
        (wordPiece "public".toList :: wordPiece "static".toList :: (core ++ markPieces nullable ++
          wordPiece r.name.toList :: symbolPiece "(" ::
            (commaPieces parameters ++ [symbolPiece ")"]))) := by
  obtain ⟨core, nullable, named, cuts⟩ := plain.returnType.exists_pieces
  obtain ⟨parameters, lexes, are, length⟩ := exists_commaPieces plain.parameters
  refine ⟨core, nullable, parameters, named, ?_, are, fun rest qs _ later => ?_⟩
  · rintro rfl
    exact plain.nonempty (List.length_eq_zero_iff.1 length.symm)
  · have closes : Cuts (')' :: _) _ := later.firm (s := ")") (by decide)
    have opens : Cuts ('(' :: _) _ :=
      (lexes _ _ (stops_cons (by decide) _) closes).firm (s := "(") (by decide)
    have name := opens.word (isName_of_isIdentifier plain.name.identifier)
      (stops_cons (by decide) _)
    have static := (cuts _ _ name).blank.word (w := "static".toList) (by decide)
      (stops_cons (by decide) _)
    have whole := static.blank.word (w := "public".toList) (by decide) (stops_cons (by decide) _)
    have written : r.signature = "public static " ++ r.returnType ++ " " ++ r.name ++ "(" ++
      ", ".intercalate r.parameters ++ ")" := rfl
    rw [written]
    simpa using whole

/-- The lines of a routine are a member in which the routine is found. -/
theorem Routine.IsPlain.exists_pieces {r : Routine} (plain : r.IsPlain) :
    ∃ ps found, LexesLines (r.lines.map memberLine) ps ∧ IsMember ps [found] ∧
      r.IsFoundAs found := by
  obtain ⟨_, tag, arguments, nonempty, each, ⟨inside, rfl, insideLexes⟩, written⟩ := plain.tag
  obtain ⟨core, nullable, parameters, named, present, are, signature⟩ := lexes_signature plain
  obtain ⟨more, blockLexes, block⟩ :=
    plain.body.exists_pieces memberLine fun _ _ lexes => lexes.memberLine
  have function : IsFunction parameters (symbolPiece "\x7b" :: more) :=
    ⟨present, are, ⟨_, rfl⟩, block⟩
  have free : IsFree (wordPiece r.name.toList) := plain.name.isFree false
  have method := isDeclaration_method named nullable free function
  have modifiers : AreModifiers [wordPiece "public".toList, wordPiece "static".toList] :=
    (areModifiers_nil.cons (w := "static") (by decide) (by decide)).cons (w := "public")
      (by decide) (by decide)
  refine ⟨_, (r.name, ["(" ++ inside]), ?_,
    method.isMember (isAttribute_tag nonempty each) modifiers ?_, _, tag, rfl⟩
  · have tagLexes := lexes_tag insideLexes
    rw [← tag] at tagLexes
    have whole := tagLexes.memberLine.single.append (signature.memberLine.single.append blockLexes)
    simpa [Routine.lines, methodPieces, functionPieces] using whole
  · intro tags given
    obtain ⟨here, none, first, last, rfl⟩ := List.forall₂_cons_right_iff.1 given
    rw [List.forall₂_nil_right_iff.1 last, tags_eq_of_isTagsOf first, written]
    simp [wordPiece]

/-- The lines of routines are members in which the routines are found. -/
theorem exists_memberPieces {routines : List Routine} (plain : ∀ r ∈ routines, r.IsPlain) :
    ∃ items : List (List Piece × List (String × List String)),
      LexesLines (memberLines (routines.map Routine.lines)) (items.flatMap Prod.fst) ∧
      (∀ i ∈ items, IsMember i.1 i.2) ∧
      List.Forall₂ Routine.IsFoundAs routines (items.flatMap Prod.snd) := by
  induction routines with
  | nil => exact ⟨[], lexesLines_nil, by simp, .nil⟩
  | cons r routines ih =>
    obtain ⟨first, plain⟩ := List.forall_mem_cons.1 plain
    obtain ⟨ps, found, lexes, isMember, isFound⟩ := first.exists_pieces
    cases routines with
    | nil =>
      exact ⟨[(ps, [found])], by simpa [memberLines] using lexes,
        List.forall_mem_singleton.2 isMember, .cons isFound .nil⟩
    | cons s routines =>
      obtain ⟨items, others, areMembers, areFound⟩ := ih plain
      exact ⟨(ps, [found]) :: items, lexes.append (lexes_empty.single.append others),
        List.forall_mem_cons.2 ⟨isMember, areMembers⟩, .cons isFound areFound⟩

/-! ## Files -/

/-- A layout with plain names. -/
structure UnitOptions.IsPlain (options : UnitOptions) : Prop where
  namespaceName : IsDotted options.namespaceName
  className : IsPlainName options.className

/-- The comment that a file begins with, with its line feed. -/
def commentText : List Char :=
  header.toList ++ ['\n']

/-- The directive in the second line of a file. -/
def directiveText : List Char :=
  "#nullable enable".toList

theorem toList_intercalate_feed (lines : List String) (line : String) :
    ("\n".intercalate (line :: lines) ++ "\n").toList = linesText (line :: lines) := by
  induction lines generalizing line with
  | nil => simp [linesText]
  | cons next lines ih =>
    have later := ih next
    rw [String.toList_append] at later
    rw [String.intercalate_cons_cons, String.toList_append, String.toList_append,
      String.toList_append, List.append_assoc, later]
    simp [linesText]

theorem linesText_cons (line : String) (lines : List String) :
    linesText (line :: lines) = line.toList ++ '\n' :: linesText lines := by
  simp [linesText]

theorem linesText_front (lines : List String) :
    linesText (header :: "#nullable enable" :: "" :: lines) =
      commentText ++ (directiveText ++ '\n' :: '\n' :: linesText lines) := by
  rw [linesText_cons, linesText_cons, linesText_cons]
  unfold commentText directiveText
  rw [List.append_assoc]
  rfl

theorem filter_directives {ls : List Lexeme} (plain : ∀ l ∈ ls, l.kind ≠ .directive) :
    ls.filter (fun l => l.kind == .directive) = [] ∧
      ls.filter (fun l => l.kind != .directive) = ls := by
  rw [List.filter_eq_nil_iff, List.filter_eq_self]
  exact ⟨fun l mem => by simpa using plain l mem, fun l mem => by simpa using plain l mem⟩

/-- Text that is cut into pieces is read as lexemes of these pieces. -/
theorem exists_ofSource_of_cuts {cs : List Char} {ps : List Piece} (cuts : Cuts cs ps) :
    ∃ ls, Lexeme.ofSource? cs = some ls ∧ Lexeme.Are ls ps := by
  obtain ⟨ls, scanned, are, plain⟩ := exists_scan_of_cuts cuts (cs.length + 1) 1 (by omega)
  have noNull : cs.contains '\x00' = false := by simpa using null_notMem_of_cuts cuts
  obtain ⟨none, all⟩ := filter_directives plain
  refine ⟨ls, ?_, are⟩
  rw [Lexeme.ofSource?, Lexeme.ofText?, noNull, if_neg Bool.false_ne_true, scanned]
  simp only [none, all]
  rfl

theorem ofSource?_eq_none_of_null {cs : List Char} (null : '\x00' ∈ cs) :
    Lexeme.ofSource? cs = none := by
  have contains : cs.contains '\x00' = true := by simpa using null
  rw [Lexeme.ofSource?, Lexeme.ofText?, contains, if_pos rfl]

section Front

variable {rest : List Char} {ps : List Piece}

theorem null_notMem_front (cuts : Cuts rest ps) :
    '\x00' ∉ commentText ++ (directiveText ++ '\n' :: '\n' :: rest) := by
  have front : '\x00' ∉ commentText ∧ '\x00' ∉ directiveText := by decide +kernel
  have behind := null_notMem_of_cuts cuts.feed.feed
  rw [List.mem_append, List.mem_append]
  rintro (mem | mem | mem)
  · exact front.1 mem
  · exact front.2 mem
  · exact behind mem

/-- A file is cut into its directive and the lexemes behind its front. -/
theorem exists_ofText_front (cuts : Cuts rest ps) :
    ∃ here ls, Lexeme.ofText? (commentText ++ (directiveText ++ '\n' :: '\n' :: rest)) =
        some (⟨.directive, directiveText, commentText, here⟩ :: ls) ∧
      Lexeme.Are ls ps ∧ ∀ l ∈ ls, l.kind ≠ .directive := by
  have noNull := null_notMem_front cuts
  -- The comment and its line feed take three steps, whatever stands behind the directive.
  have skipped (n : Nat) : Lexeme.skipLead (n + 3)
      (commentText ++ (directiveText ++ '\n' :: '\n' :: rest)) =
        some (directiveText ++ '\n' :: '\n' :: rest) := rfl
  have cut : Lexeme.skipLexeme (directiveText ++ '\n' :: '\n' :: rest) =
      some (.directive, '\n' :: '\n' :: rest) := rfl
  have length : (commentText ++ (directiveText ++ '\n' :: '\n' :: rest)).length =
      commentText.length + directiveText.length + ('\n' :: '\n' :: rest).length := by
    simp only [List.length_append, Nat.add_assoc]
  have long : 2 ≤ commentText.length ∧ 0 < directiveText.length := by decide
  generalize whole : commentText ++ (directiveText ++ '\n' :: '\n' :: rest) = cs at *
  obtain ⟨n, enough⟩ : ∃ n, cs.length + 1 = n + 3 := ⟨cs.length - 2, by omega⟩
  have start := skipped n
  rw [← enough, ← whole] at start
  obtain ⟨here, next, scanned⟩ := exists_scan_step (by decide) start cut cs.length 1
  obtain ⟨ls, later, are, plain⟩ :=
    exists_scan_of_cuts cuts.feed.feed cs.length next (by omega)
  refine ⟨here, ls, ?_, are, plain⟩
  rw [whole, later] at scanned
  rw [Lexeme.ofText?, if_neg (by simpa using noNull), scanned, Option.map_some]

/-- The lexemes of a file are those behind its front. -/
theorem exists_ofSource (cuts : Cuts rest ps) :
    ∃ ls, Lexeme.ofSource? (commentText ++ (directiveText ++ '\n' :: '\n' :: rest)) = some ls ∧
      Lexeme.Are ls ps := by
  obtain ⟨here, ls, read, are, plain⟩ := exists_ofText_front cuts
  refine ⟨ls, ?_, are⟩
  have word : Lexeme.directiveWord ⟨.directive, directiveText, commentText, here⟩ =
      "nullable" := rfl
  have matched : Lexeme.directivesMatch 0 ["nullable"] = true := by decide +kernel
  obtain ⟨none, all⟩ := filter_directives plain
  rw [Lexeme.ofSource?, read]
  simp [none, all, word, matched]

end Front

/-- The namespace of a file is cut into a namespace in which the routines are found. -/
theorem exists_namespacePieces {options : UnitOptions} (named : options.IsPlain)
    {routines : List Routine} (plain : ∀ r ∈ routines, r.IsPlain) :
    ∃ ps found, LexesLines ([ "namespace " ++ options.namespaceName, "\x7b",
          indent ++ "file static class " ++ options.className, indent ++ "\x7b" ] ++
        memberLines (routines.map Routine.lines) ++ [indent ++ "\x7d", "\x7d"]) ps ∧
      IsUnitItem ps found ∧ List.Forall₂ Routine.IsFoundAs routines found := by
  obtain ⟨_, path, p, segments, rfl, free, isPath⟩ := named.namespaceName.isWrittenAs
  obtain ⟨items, lexes, areMembers, areFound⟩ := exists_memberPieces plain
  have className : IsFree (wordPiece options.className.toList) := named.className.isFree false
  have modifiers : AreModifiers [wordPiece "file".toList, wordPiece "static".toList] :=
    (areModifiers_nil.cons (w := "static") (by decide) (by decide)).file
  have attributes : ∀ a ∈ ([] : List (List Piece × List (List Piece))), IsAttribute a.1 a.2 := by
    simp
  have isClass := (isDeclaration_class className.word (.inl rfl) areMembers).isMember attributes
    modifiers fun _ _ => rfl
  have head : Lexes ("namespace " ++ options.namespaceName)
      (wordPiece "namespace".toList :: p :: pathPieces segments) := by
    intro rest qs stops later
    have whole := (path rest qs stops later).blank.word (w := "namespace".toList) (by decide)
      (stops_cons (by decide) _)
    simpa using whole
  have classHead : Lexes ("file static class " ++ options.className)
      [wordPiece "file".toList, wordPiece "static".toList, wordPiece "class".toList,
        wordPiece options.className.toList] := by
    intro rest qs stops later
    have name := later.word (isName_of_isIdentifier named.className.identifier) stops
    have word := name.blank.word (w := "class".toList) (by decide) (stops_cons (by decide) _)
    have static := word.blank.word (w := "static".toList) (by decide) (stops_cons (by decide) _)
    have whole := static.blank.word (w := "file".toList) (by decide) (stops_cons (by decide) _)
    simpa using whole
  have opens := lexes_firm (s := "\x7b") (by decide)
  have closes := lexes_firm (s := "\x7d") (by decide)
  refine ⟨_, _, ?_, isUnitItem_namespace free.word isPath isClass, areFound⟩
  have whole := head.single.append <| opens.single.append <| classHead.indent.single.append <|
    opens.indent.single.append <| lexes.append <| closes.indent.single.append closes.single
  simpa [namespacePieces, classPieces, attributeListPieces, String.append_assoc] using whole

/-- The lines of a file behind its front. -/
def declarationLines (options : UnitOptions) (routines : List (List String)) : List String :=
  (if options.declaresAttribute then attributeDeclaration ++ [""] else []) ++
    ([ "namespace " ++ options.namespaceName, "\x7b",
        indent ++ "file static class " ++ options.className, indent ++ "\x7b" ] ++
      memberLines routines ++ [indent ++ "\x7d", "\x7d"])

/-- A file with routines is the text of its lines. -/
theorem toList_unitText_eq_linesText (options : UnitOptions) {routines : List (List String)}
    (nonempty : routines ≠ []) :
    (unitText options routines).toList = linesText (unitLines options routines) := by
  have filled : routines.isEmpty = false := by simpa using nonempty
  rw [unitText, filled, if_neg Bool.false_ne_true]
  exact toList_intercalate_feed _ _

theorem toList_unitText (options : UnitOptions) {routines : List (List String)}
    (nonempty : routines ≠ []) : (unitText options routines).toList = commentText ++
      (directiveText ++ '\n' :: '\n' :: linesText (declarationLines options routines)) := by
  have lines : unitLines options routines =
      header :: "#nullable enable" :: "" :: declarationLines options routines := by
    unfold unitLines declarationLines
    simp only [List.append_assoc, List.cons_append, List.nil_append]
  rw [toList_unitText_eq_linesText options nonempty, lines]
  exact linesText_front _

/-- The items of a file with routines. -/
theorem exists_unitPieces {options : UnitOptions} (named : options.IsPlain)
    {routines : List Routine} (plain : ∀ r ∈ routines, r.IsPlain) :
    ∃ items : List (List Piece × List (String × List String)),
      LexesLines (declarationLines options (routines.map Routine.lines)) (items.flatMap Prod.fst) ∧
      (∀ i ∈ items, IsUnitItem i.1 i.2) ∧
      List.Forall₂ Routine.IsFoundAs routines (items.flatMap Prod.snd) := by
  obtain ⟨ps, found, lexes, isItem, areFound⟩ := exists_namespacePieces named plain
  obtain ⟨declaration, declared, isDeclaration⟩ := exists_attributeDeclaration
  unfold declarationLines
  cases options.declaresAttribute with
  | false =>
    exact ⟨[(ps, found)], by simpa using lexes, List.forall_mem_singleton.2 isItem,
      by simpa using areFound⟩
  | true =>
    have whole := (declared.append lexes_empty.single).append lexes
    exact ⟨[(declaration, []), (ps, found)], by simpa using whole,
      List.forall_mem_cons.2 ⟨isDeclaration, List.forall_mem_singleton.2 isItem⟩,
      by simpa using areFound⟩

/-- The tagged methods of a file are its routines, in order. -/
theorem exists_taggedMethods {options : UnitOptions} (named : options.IsPlain)
    {routines : List Routine} (plain : ∀ r ∈ routines, r.IsPlain) :
    ∃ methods,
      taggedMethods? (unitText options (routines.map Routine.lines)).toList = some methods ∧
      List.Forall₂ Routine.IsFoundAs routines (methods.map signature) := by
  cases routines with
  | nil =>
    have empty : taggedMethods? (header ++ "\n").toList = some [] := by decide +kernel
    exact ⟨[], empty, .nil⟩
  | cons r routines =>
    obtain ⟨items, lexes, areItems, areFound⟩ := exists_unitPieces named plain
    have cuts := lexes [] [] (.blanks (by simp))
    rw [List.append_nil, List.append_nil] at cuts
    obtain ⟨ls, read, are⟩ := exists_ofSource cuts
    have deep : (items.flatMap Prod.fst).length < ls.length + 1 := by
      rw [← are.length_eq]
      exact Nat.lt_succ_self _
    obtain ⟨found, signed, items⟩ := exists_unitItems areItems are deep
    refine ⟨found, ?_, signed ▸ areFound⟩
    rw [toList_unitText options (by simp), taggedMethods?, read, Option.bind_some, items]

end CallSiteIds.Source
