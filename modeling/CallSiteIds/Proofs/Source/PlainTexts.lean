import CallSiteIds.Proofs.Source.Statements

/-!
# Texts over pieces

The texts of a routine are cut into pieces of the right phrases when its names are plain: the name
of a type into a type name, an argument into an expression, a statement into a statement.  A text
is cut into pieces in front of whatever stops the last of them (`Lexes`), and it is written for a
phrase when it is cut into pieces of that phrase (`IsWrittenAs`).
-/

set_option autoImplicit false

namespace CallSiteIds.Source

open Grammar

/-! ## Plain names -/

/-- An identifier without a meaning of its own. -/
structure IsPlainName (name : String) : Prop where
  identifier : isIdentifier name.toList = true
  meaningless : name ∉ meaningfulWords

instance (name : String) : Decidable (IsPlainName name) :=
  decidable_of_iff (isIdentifier name.toList = true ∧ name ∉ meaningfulWords)
    ⟨fun h => ⟨h.1, h.2⟩, fun h => ⟨h.1, h.2⟩⟩

/-- Plain names with points between. -/
def IsDotted (name : String) : Prop :=
  ∃ first others, name = ".".intercalate (first :: others) ∧ ∀ n ∈ first :: others, IsPlainName n

/-- A type that is predefined or named by plain names, perhaps with a question mark behind. -/
def IsPlainType (type : String) : Prop :=
  ∃ core, (core ∈ predefinedTypes ∨ IsDotted core) ∧ (type = core ∨ type = core ++ "?")

theorem isDotted_intercalate (first : String) (others : List String)
    (each : ∀ n ∈ first :: others, IsPlainName n) : IsDotted (".".intercalate (first :: others)) :=
  ⟨first, others, rfl, each⟩

theorem isPlainType_of_predefined (core : String) (known : core ∈ predefinedTypes) :
    IsPlainType core ∧ IsPlainType (core ++ "?") :=
  ⟨⟨core, .inl known, .inl rfl⟩, ⟨core, .inl known, .inr rfl⟩⟩

/-- An identifier that may name a parameter: it may be reserved, but nothing else is meant by it
in some places only. -/
structure IsParameterName (name : String) : Prop where
  identifier : isIdentifier name.toList = true
  meaningless : name ∉ contextualWords

instance (name : String) : Decidable (IsParameterName name) :=
  decidable_of_iff (isIdentifier name.toList = true ∧ name ∉ contextualWords)
    ⟨fun h => ⟨h.1, h.2⟩, fun h => ⟨h.1, h.2⟩⟩

theorem toNat_lt_of_isNameChar {c : Char} (h : isNameChar c = true) : c.toNat < 0x80 := by
  have classes : (((c.isUpper || c.isLower) || c.isDigit) || c == '_') = true := h
  rw [Bool.or_eq_true, Bool.or_eq_true, Bool.or_eq_true, beq_iff_eq] at classes
  rcases classes with ((upper | lower) | digit) | rfl
  · exact Nat.lt_of_le_of_lt (of_decide_eq_true upper).2 (by decide)
  · exact Nat.lt_of_le_of_lt (of_decide_eq_true (Bool.and_eq_true_iff.1 lower).2) (by decide)
  · exact Nat.lt_of_le_of_lt (of_decide_eq_true (Bool.and_eq_true_iff.1 digit).2) (by decide)
  · decide

theorem continuesWord_of_isNameChar {c : Char} (h : isNameChar c = true) :
    Text.continuesWord c = true := by
  rw [Text.continuesWord, if_pos (toNat_lt_of_isNameChar h)]
  exact h

theorem startsWord_of_isAlpha {c : Char} (h : (c.isAlpha || c == '_') = true) :
    Text.startsWord c = true := by
  have part : isNameChar c = true := by
    rw [Bool.or_eq_true] at h
    rcases h with letter | line
    · simp [isNameChar, Char.isAlphanum, letter]
    · simp [isNameChar, line]
  rw [Text.startsWord, if_pos (toNat_lt_of_isNameChar part)]
  exact h

/-- An identifier is a name of the language. -/
theorem isName_of_isIdentifier {cs : List Char} (h : isIdentifier cs = true) :
    isName cs = true := by
  cases cs with
  | nil => cases h
  | cons c cs =>
    simp only [isIdentifier, Bool.and_eq_true, List.all_eq_true] at h
    have starts := startsWord_of_isAlpha h.1
    have continues : cs.all Text.continuesWord = true := by
      rw [List.all_eq_true]
      intro d mem
      exact continuesWord_of_isNameChar (h.2 d mem)
    unfold isName
    split
    · rename_i same
      rw [(List.cons.inj same).1] at starts
      exact absurd starts (by decide)
    · rename_i same
      obtain ⟨rfl, rfl⟩ := List.cons.inj same
      rw [starts, continues]
      rfl
    · rename_i same
      cases same

theorem IsPlainName.isFree {name : String} (plain : IsPlainName name) (tight : Bool) :
    IsFree ⟨.word, name.toList, tight⟩ where
  word := rfl
  meaningless := by
    rw [String.ofList_toList]
    exact plain.meaningless

/-- A parameter is written as a name without a meaning of its own. -/
theorem IsParameterName.isFree {name : String} (plain : IsParameterName name) :
    isName (escapeName name).toList = true ∧ IsFree (wordPiece (escapeName name).toList) := by
  have named := isName_of_isIdentifier plain.identifier
  unfold escapeName
  split
  · -- With an at sign in front no word has a meaning of its own.
    have unmarked : ∀ w ∈ meaningfulWords, w.toList.head? ≠ some '@' := by decide +kernel
    have written : ("@" ++ name).toList = '@' :: name.toList := by simp
    refine ⟨?_, rfl, ?_⟩
    · have identifier := plain.identifier
      rw [written]
      generalize name.toList = cs at identifier
      cases cs with
      | nil => cases identifier
      | cons c cs =>
        simp only [isIdentifier, Bool.and_eq_true, List.all_eq_true] at identifier
        rw [isName, startsWord_of_isAlpha identifier.1, Bool.true_and, List.all_eq_true]
        intro d mem
        exact continuesWord_of_isNameChar (identifier.2 d mem)
    · intro mem
      refine unmarked _ mem ?_
      rw [String.toList_ofList, wordPiece, written]
      rfl
  · rename_i unreserved
    refine ⟨named, rfl, ?_⟩
    rw [wordPiece, String.ofList_toList, meaningfulWords, List.mem_append]
    rintro (mem | mem)
    · exact unreserved mem
    · exact plain.meaningless mem

/-! ## Cutting texts -/

/-- A text is cut into pieces in front of what stops its last piece. -/
def Lexes (text : String) (ps : List Piece) : Prop :=
  ∀ rest qs, Stops rest → Cuts rest qs → Cuts (text.toList ++ rest) (ps ++ qs)

/-- A text is cut into pieces of some kind. -/
def IsWrittenAs (kind : List Piece → Prop) (text : String) : Prop :=
  ∃ ps, Lexes text ps ∧ kind ps

theorem lexes_name {name : String} (named : isName name.toList = true) :
    Lexes name [wordPiece name.toList] :=
  fun _ _ stops later => later.word named stops

theorem lexes_literal (value : String) :
    Lexes (String.ofList (regularLiteral value.toList))
      [textPiece (regularLiteral value.toList)] := by
  intro rest qs stops later
  rw [String.toList_ofList]
  exact later.regular _ stops

/-- Texts with commas between are cut into items with commas between. -/
theorem exists_commaPieces {kind : List Piece → Prop} {texts : List String}
    (each : ∀ t ∈ texts, IsWrittenAs kind t) :
    ∃ items : List (List Piece), Lexes (", ".intercalate texts) (commaPieces items) ∧
      (∀ ps ∈ items, kind ps) ∧ items.length = texts.length := by
  induction texts with
  | nil => exact ⟨[], fun _ _ _ later => later, by simp, rfl⟩
  | cons t texts ih =>
    obtain ⟨⟨ps, lexes, is⟩, each⟩ := List.forall_mem_cons.1 each
    obtain ⟨items, others, are, length⟩ := ih each
    refine ⟨ps :: items, ?_, List.forall_mem_cons.2 ⟨is, are⟩, by simp [length]⟩
    cases texts with
    | nil =>
      rw [List.length_eq_zero_iff.1 length]
      simpa [commaPieces] using lexes
    | cons u texts =>
      cases items with
      | nil => cases length
      | cons qs items =>
        intro rest rs stops later
        have comma : Cuts (',' :: _) _ :=
          (others rest rs stops later).blank.firm (s := ",") (by decide)
        have whole := lexes _ _ (stops_cons (by decide) _) comma
        rw [String.intercalate_cons_cons]
        simpa [commaPieces] using whole

/-! ## Paths -/

/-- Further names of a dotted name. -/
def pointed (names : List String) : List (String × Piece) :=
  names.map fun n => (".", ⟨.word, n.toList, true⟩)

theorem isPath_pointed (names : List String) : IsPath (pointed names) := by
  intro x mem
  obtain ⟨n, -, rfl⟩ := List.mem_map.1 mem
  exact ⟨List.mem_cons_self, rfl⟩

theorem toList_dotted (first : String) (others : List String) :
    (".".intercalate (first :: others)).toList =
      first.toList ++ others.flatMap fun n => '.' :: n.toList := by
  induction others generalizing first with
  | nil => simp
  | cons n others ih =>
    rw [String.intercalate_cons_cons, String.toList_append, String.toList_append, ih]
    simp

theorem cuts_pointed {names : List String} (named : ∀ n ∈ names, isName n.toList = true)
    {rest : List Char} {qs : List Piece} (stops : Stops rest) (later : Cuts rest qs) :
    Stops (names.flatMap (fun n => '.' :: n.toList) ++ rest) ∧
      Cuts (names.flatMap (fun n => '.' :: n.toList) ++ rest)
        (pathPieces (pointed names) ++ qs) := by
  induction names with
  | nil => exact ⟨stops, later⟩
  | cons n names ih =>
    obtain ⟨first, named⟩ := List.forall_mem_cons.1 named
    obtain ⟨apart, others⟩ := ih named
    have whole := @Cuts.pointed [] _ _ _ (by simp) first apart.notWord others
    simp only [List.flatMap_cons, List.append_assoc, List.cons_append, List.nil_append] at whole ⊢
    exact ⟨stops_cons (by decide) _, whole⟩

theorem lexes_dotted {first : String} {others : List String}
    (named : ∀ n ∈ first :: others, isName n.toList = true) :
    Lexes (".".intercalate (first :: others))
      (wordPiece first.toList :: pathPieces (pointed others)) := by
  intro rest qs stops later
  obtain ⟨first, named⟩ := List.forall_mem_cons.1 named
  obtain ⟨apart, others⟩ := cuts_pointed named stops later
  rw [toList_dotted, List.append_assoc]
  exact others.word first apart

/-- Pieces of a path that begins with a free word. -/
def IsFreePath (ps : List Piece) : Prop :=
  ∃ p segments, ps = p :: pathPieces segments ∧ IsFree p ∧ IsPath segments

theorem IsDotted.isWrittenAs {name : String} (dotted : IsDotted name) :
    IsWrittenAs IsFreePath name := by
  obtain ⟨first, others, rfl, plain⟩ := dotted
  refine ⟨_, lexes_dotted fun n mem => isName_of_isIdentifier (plain n mem).identifier, ?_⟩
  exact ⟨_, _, rfl, (plain first List.mem_cons_self).isFree false, isPath_pointed others⟩

/-- A further name goes on with a dotted name. -/
theorem IsDotted.append {name last : String} (dotted : IsDotted name) (plain : IsPlainName last) :
    IsDotted (name ++ "." ++ last) := by
  obtain ⟨first, others, rfl, each⟩ := dotted
  refine ⟨first, others ++ [last], ?_, ?_⟩
  · rw [← String.toList_inj, String.toList_append, String.toList_append, toList_dotted,
      toList_dotted]
    simp
  · rw [← List.cons_append, List.forall_mem_append]
    exact ⟨each, by simpa using plain⟩

theorem lexes_global {first : String} {others : List String}
    (named : ∀ n ∈ first :: others, isName n.toList = true) :
    Lexes ("global::" ++ ".".intercalate (first :: others)) (wordPiece "global".toList ::
      pathPieces (("::", wordPiece first.toList) :: pointed others)) := by
  intro rest qs stops later
  have colons : Cuts (':' :: ':' :: _) _ :=
    (lexes_dotted named rest qs stops later).firm (s := "::") (by decide)
  have whole := colons.word (w := "global".toList) (by decide) (stops_cons (by decide) _)
  simpa [pathPieces] using whole

/-- A dotted name from the root namespace is a path. -/
theorem IsDotted.isWrittenAs_global {name : String} (dotted : IsDotted name) :
    IsWrittenAs IsFreePath ("global::" ++ name) := by
  obtain ⟨first, others, rfl, plain⟩ := dotted
  refine ⟨_, lexes_global fun n mem => isName_of_isIdentifier (plain n mem).identifier,
    _, _, rfl, ⟨rfl, by decide +kernel⟩, ?_⟩
  exact List.forall_mem_cons.2 ⟨⟨List.mem_cons_of_mem _ List.mem_cons_self, rfl⟩,
    isPath_pointed others⟩

theorem isNameChar_of_mem_isDotted {name : String} (dotted : IsDotted name) :
    ∀ c ∈ name.toList, isNameChar c = true ∨ c = '.' := by
  obtain ⟨first, others, rfl, plain⟩ := dotted
  have each {n : String} (mem : n ∈ first :: others) : ∀ c ∈ n.toList, isNameChar c = true :=
    List.all_eq_true.1 (all_of_isIdentifier (plain n mem).identifier)
  rw [toList_dotted]
  intro c mem
  rcases List.mem_append.1 mem with mem | mem
  · exact Or.inl (each List.mem_cons_self c mem)
  · obtain ⟨n, inside, mem⟩ := List.mem_flatMap.1 mem
    rcases List.mem_cons.1 mem with rfl | mem
    · exact Or.inr rfl
    · exact Or.inl (each (List.mem_cons_of_mem _ inside) c mem)

/-- A dotted name is not yet written from the root namespace. -/
theorem IsDotted.globalType {name : String} (dotted : IsDotted name) :
    globalType name = "global::" ++ name := by
  unfold Source.globalType
  split
  · rename_i front
    obtain ⟨rest, same⟩ := List.isPrefixOf_iff_prefix.1 front
    have colon : ':' ∈ name.toList := by
      rw [← same]
      simp
    rcases isNameChar_of_mem_isDotted dotted _ colon with part | point
    · exact absurd part (by decide)
    · exact absurd point (by decide)
  · rfl

/-- The method that is called is written as a path. -/
theorem isWrittenAs_callee {targetType methodName : String} (dotted : IsDotted targetType)
    (plain : IsPlainName methodName) (isStatic : Bool) :
    IsWrittenAs IsFreePath (calleeText targetType methodName isStatic) := by
  cases isStatic with
  | true =>
    have path := (dotted.append plain).isWrittenAs_global
    rw [calleeText, if_pos rfl, dotted.globalType, String.append_assoc, String.append_assoc]
    rwa [String.append_assoc] at path
  | false =>
    have named : ∀ n ∈ [receiverName, methodName], isName n.toList = true := by
      simp only [List.forall_mem_cons]
      exact ⟨by decide, isName_of_isIdentifier plain.identifier, by simp⟩
    have written : calleeText targetType methodName false =
        ".".intercalate [receiverName, methodName] := by
      simp [calleeText]
    rw [written]
    exact ⟨_, lexes_dotted named, _, _, rfl, ⟨rfl, by decide +kernel⟩, isPath_pointed _⟩

/-! ## Types and parameters -/

/-- The name of a type in front of a blank is cut into a type name and its mark. -/
theorem IsPlainType.exists_pieces {type : String} (plain : IsPlainType type) :
    ∃ core nullable, IsTypeName core ∧ ∀ rest qs, Cuts rest qs →
      Cuts (type.toList ++ ' ' :: rest) (core ++ markPieces nullable ++ qs) := by
  obtain ⟨core, listed, written⟩ := plain
  obtain ⟨ps, lexes, named⟩ : IsWrittenAs IsTypeName core := by
    rcases listed with predefined | dotted
    · have each : ∀ w ∈ predefinedTypes, isName w.toList = true := by decide +kernel
      exact ⟨_, lexes_name (each core predefined), .predefined predefined⟩
    · obtain ⟨_, lexes, p, segments, rfl, free, path⟩ := dotted.isWrittenAs
      exact ⟨_, lexes, .path free path⟩
  rcases written with rfl | rfl
  · refine ⟨ps, false, named, fun rest qs later => ?_⟩
    have whole := lexes _ _ (stops_cons (by decide) _) later.blank
    simpa [markPieces] using whole
  · refine ⟨ps, true, named, fun rest qs later => ?_⟩
    have mark : Cuts ('?' :: ' ' :: rest) _ := later.blank.spaced (s := "?") (by decide)
    have whole := lexes _ _ (stops_cons (by decide) _) mark
    simpa [markPieces] using whole

/-- A parameter with a plain name and a plain type, and with no default but null. -/
structure IsPlainParameter (p : ParameterInfo) : Prop where
  name : IsParameterName p.name
  type : IsPlainType p.type
  default : p.hasDefault = true → p.defaultLiteral.getD "null" = "null"

/-- A declared parameter is written as one. -/
theorem IsPlainParameter.isWrittenAs {p : ParameterInfo} (plain : IsPlainParameter p) :
    IsWrittenAs IsParameter (parameterText p) := by
  obtain ⟨core, nullable, named, cuts⟩ := plain.type.exists_pieces
  obtain ⟨isName, free⟩ := plain.name.isFree
  cases hasDefault : p.hasDefault with
  | false =>
    refine ⟨_, fun rest qs stops later => ?_,
      takes_parameter false named nullable free.word (.inl rfl)⟩
    have whole := cuts _ _ (later.word isName stops)
    simpa [parameterText, hasDefault, receiverPieces] using whole
  | true =>
    have value : IsDefault [symbolPiece "=", wordPiece "null".toList] :=
      .inr ⟨_, rfl, (isOperand_constant (by decide)).isExpression⟩
    refine ⟨_, fun rest qs stops later => ?_, takes_parameter false named nullable free.word value⟩
    have null := (later.word (w := "null".toList) (by decide) stops)
    have equals : Cuts ('=' :: ' ' :: _) _ := null.blank.spaced (s := "=") (by decide)
    have whole := cuts _ _ (equals.blank.word isName (stops_cons (by decide) _))
    simpa [parameterText, hasDefault, plain.default hasDefault, receiverPieces] using whole

/-- The receiver is written as a parameter. -/
theorem isWrittenAs_receiver {targetType : String} (dotted : IsDotted targetType) :
    IsWrittenAs IsParameter (receiverText targetType) := by
  obtain ⟨_, lexes, p, segments, rfl, free, path⟩ := dotted.isWrittenAs_global
  have word : (wordPiece receiverName.toList).kind = .word := rfl
  refine ⟨_, fun rest qs stops later => ?_,
    takes_parameter true (.path free path) false word (.inl rfl)⟩
  have name := (later.word (w := receiverName.toList) (by decide) stops).blank
  have type := (lexes _ _ (stops_cons (by decide) _) name).blank
  have whole := type.word (w := "this".toList) (by decide) (stops_cons (by decide) _)
  rw [receiverText, dotted.globalType]
  simpa [receiverPieces, markPieces] using whole

/-! ## Calls and statements -/

theorem IsParameterName.isOperand {name : String} (named : IsParameterName name) :
    IsOperand [wordPiece (escapeName name).toList] :=
  isOperand_word named.isFree.2

theorem isWrittenAs_argument {a : Argument} (named : IsParameterName a.name) :
    IsWrittenAs IsExpression a.text := by
  obtain ⟨isName, -⟩ := named.isFree
  cases a with
  | passed name => exact ⟨_, lexes_name isName, named.isOperand.isExpression⟩
  | orLiteral name literal =>
    have chain : IsChain (symbolPiece "??" :: [textPiece (regularLiteral literal.toList)]) :=
      .cons (by decide) (isOperand_text _) .nil
    refine ⟨_, fun rest qs stops later => ?_, isExpression_append named.isOperand chain⟩
    have literal := lexes_literal literal rest qs stops later
    have mark : Cuts ('?' :: '?' :: ' ' :: _) _ := literal.blank.spaced (s := "??") (by decide)
    have whole := mark.blank.word isName (stops_cons (by decide) _)
    simpa [Argument.text, Argument.name] using whole

/-- A call of a plainly named method with plainly named arguments. -/
structure Call.IsPlain (c : Call) : Prop where
  callee : IsWrittenAs IsFreePath c.callee
  nonempty : c.arguments ≠ []
  named : ∀ a ∈ c.arguments, IsParameterName a.name

/-- A call is an expression that begins with a path, with a semicolon behind. -/
theorem Call.IsPlain.exists_pieces {c : Call} (plain : c.IsPlain) :
    ∃ ps, Lexes c.text (ps ++ [symbolPiece ";"]) ∧ IsPathExpression ps := by
  obtain ⟨_, callee, p, segments, rfl, free, path⟩ := plain.callee
  have each : ∀ t ∈ c.arguments.map Argument.text, IsWrittenAs IsExpression t := by
    intro t mem
    obtain ⟨a, inside, rfl⟩ := List.mem_map.1 mem
    exact isWrittenAs_argument (plain.named a inside)
  obtain ⟨items, arguments, are, length⟩ := exists_commaPieces each
  have nonempty : items ≠ [] := by
    rintro rfl
    rw [List.length_map] at length
    exact plain.nonempty (List.length_eq_zero_iff.1 length.symm)
  have unnamed : HasNoColon (symbolPiece "(" :: (commaPieces items ++ [symbolPiece ")"])) :=
    hasNoColon_cons (fun _ => by decide) <|
      (hasNoColon_commaPieces fun ps mem => (are ps mem).unnamed).append <|
        hasNoColon_cons (fun _ => by decide) hasNoColon_nil
  have operand := isOperand_path free path (isCallTail_arguments nonempty are) unnamed
  refine ⟨_, fun rest qs stops later => ?_, operand.isExpression,
    p, segments, "(", _, rfl, free, path, List.mem_cons_self⟩
  have semicolon : Cuts (';' :: _) _ := later.firm (s := ";") (by decide)
  have closes : Cuts (')' :: _) _ := semicolon.firm (s := ")") (by decide)
  have inside := arguments _ _ (stops_cons (by decide) _) closes
  have opens : Cuts ('(' :: _) _ := inside.firm (s := "(") (by decide)
  have whole := callee _ _ (stops_cons (by decide) _) opens
  simpa [Call.text] using whole

/-- A statement makes only plain calls. -/
def Statement.IsPlain (s : Statement) : Prop :=
  ∀ c ∈ s.call?, c.IsPlain

theorem Statement.IsPlain.isWrittenAs {s : Statement} (plain : s.IsPlain) :
    IsWrittenAs IsStatement s.text := by
  cases s with
  | perform c =>
    obtain ⟨ps, lexes, expression⟩ := (plain c rfl).exists_pieces
    exact ⟨_, lexes, expression.isStatement⟩
  | answer c =>
    obtain ⟨ps, lexes, expression⟩ := (plain c rfl).exists_pieces
    refine ⟨_, fun rest qs stops later => ?_, isStatement_return (.inr expression.expression)⟩
    have whole := (lexes rest qs stops later).blank.word (w := "return".toList) (by decide)
      (stops_cons (by decide) _)
    simpa [Statement.text] using whole
  | leave =>
    refine ⟨_, fun rest qs stops later => ?_, isStatement_return (.inl rfl)⟩
    have semicolon : Cuts (';' :: _) _ := later.firm (s := ";") (by decide)
    have whole := semicolon.word (w := "return".toList) (by decide) (stops_cons (by decide) _)
    simpa [Statement.text] using whole

/-- Names with the marks of a condition between are an operand and a chain. -/
theorem exists_guardPieces {name : String} {names : List String}
    (named : ∀ n ∈ name :: names, IsParameterName n) :
    ∃ chain, Lexes (guardText (name :: names)) (wordPiece (escapeName name).toList :: chain) ∧
      IsChain chain := by
  have null : IsOperand [wordPiece "null".toList] := isOperand_constant (by decide)
  have present {rest : List Char} {qs : List Piece} {n : String} (named : IsParameterName n)
      (stops : Stops rest) (later : Cuts rest qs) :
      Cuts ((escapeName n ++ " != null").toList ++ rest)
        (wordPiece (escapeName n).toList :: symbolPiece "!=" :: wordPiece "null".toList :: qs) := by
    have null := (later.word (w := "null".toList) (by decide) stops).blank
    have differs : Cuts ('!' :: '=' :: ' ' :: _) _ := null.firm (s := "!=") (by decide)
    have whole := differs.blank.word named.isFree.1 (stops_cons (by decide) _)
    simpa using whole
  induction names generalizing name with
  | nil =>
    refine ⟨_, fun rest qs stops later => ?_, .cons (s := "!=") (by decide) null .nil⟩
    simpa [guardText] using present (named name List.mem_cons_self) stops later
  | cons n names ih =>
    obtain ⟨first, named⟩ := List.forall_mem_cons.1 named
    obtain ⟨chain, lexes, isChain⟩ := ih named
    have operand := (named n List.mem_cons_self).isOperand
    refine ⟨_, fun rest qs stops later => ?_, .cons (s := "!=") (by decide) null
      (.cons (s := "&&") (by decide) operand isChain)⟩
    have also : Cuts ('&' :: '&' :: ' ' :: _) _ :=
      (lexes rest qs stops later).blank.firm (s := "&&") (by decide)
    have whole := present first (stops_cons (by decide) _) also.blank
    rw [guardText, List.map_cons, List.map_cons, String.intercalate_cons_cons]
    simpa [guardText] using whole

/-- The condition that parameters are present is an expression. -/
theorem isWrittenAs_guard {names : List String} (nonempty : names ≠ [])
    (named : ∀ n ∈ names, IsParameterName n) : IsWrittenAs IsExpression (guardText names) := by
  cases names with
  | nil => exact absurd rfl nonempty
  | cons name names =>
    obtain ⟨chain, lexes, isChain⟩ := exists_guardPieces named
    exact ⟨_, lexes, isExpression_append (named name List.mem_cons_self).isOperand isChain⟩

/-! ## Lines -/

/-- Lines are cut into pieces in front of any line. -/
def LexesLines (lines : List String) (ps : List Piece) : Prop :=
  ∀ rest qs, Cuts rest qs → Cuts (linesText lines ++ rest) (ps ++ qs)

theorem lexesLines_nil : LexesLines [] [] := fun _ _ later => later

section Lines

variable {lines lines' : List String} {ps ps' : List Piece}

theorem LexesLines.append (first : LexesLines lines ps) (second : LexesLines lines' ps') :
    LexesLines (lines ++ lines') (ps ++ ps') := by
  intro rest qs later
  have whole := first _ _ (second rest qs later)
  simpa [linesText] using whole

theorem Lexes.single {line : String} (lexes : Lexes line ps) : LexesLines [line] ps := by
  intro rest qs later
  have whole := lexes _ _ (stops_cons (by decide) _) later.feed
  simpa [linesText] using whole

theorem lexes_empty : Lexes "" [] := fun _ _ _ later => later

theorem lexes_firm {s : String} (h : s ∈ firmSymbols) : Lexes s [symbolPiece s] :=
  fun _ _ _ later => later.firm h

theorem Lexes.indent {line : String} (lexes : Lexes line ps) : Lexes (indent ++ line) ps := by
  intro rest qs stops later
  have whole := (lexes rest qs stops later).blank.blank.blank.blank
  simpa [Source.indent] using whole

/-- The place of a line in its file does not change its pieces. -/
theorem Lexes.memberLine {line : String} (lexes : Lexes line ps) :
    Lexes (memberLine line) ps := by
  unfold Source.memberLine
  split
  · rename_i empty
    rwa [String.isEmpty_iff.1 empty] at lexes
  · rw [indentTwice, String.append_assoc]
    exact lexes.indent.indent

end Lines

/-- Statements on lines of their own are cut into statements. -/
theorem exists_statementPieces (place : String → String)
    (keeps : ∀ line ps, Lexes line ps → Lexes (place line) ps) {statements : List Statement}
    (plain : ∀ s ∈ statements, s.IsPlain) :
    ∃ items : List (List Piece), LexesLines (statements.map fun s => place s.text) items.flatten ∧
      ∀ ps ∈ items, IsStatement ps := by
  induction statements with
  | nil => exact ⟨[], lexesLines_nil, by simp⟩
  | cons s statements ih =>
    obtain ⟨first, plain⟩ := List.forall_mem_cons.1 plain
    obtain ⟨ps, lexes, statement⟩ := first.isWrittenAs
    obtain ⟨items, others, are⟩ := ih plain
    exact ⟨ps :: items, (keeps _ _ lexes).single.append others,
      List.forall_mem_cons.2 ⟨statement, are⟩⟩

/-- A body with plain names. -/
structure Body.IsPlain (b : Body) : Prop where
  nonempty : b.guard ≠ []
  named : ∀ n ∈ b.guard, IsParameterName n
  guarded : ∀ s ∈ b.guarded, s.IsPlain
  after : ∀ s ∈ b.after, s.IsPlain

/-- A call that is forwarded with plain names is plain. -/
theorem Routine.isPlain_forward {r : Routine} (callee : IsWrittenAs IsFreePath r.callee)
    {as : List Argument} (nonempty : as ≠ []) (named : ∀ a ∈ as, IsParameterName a.name) :
    (r.forward as).IsPlain := by
  unfold Routine.forward
  intro c call
  split at call
  · injection call with call
    exact call ▸ ⟨callee, nonempty, named⟩
  · injection call with call
    exact call ▸ ⟨callee, nonempty, named⟩

/-- The body of a routine is plain when its parameters have plain names and some are marked. -/
theorem Routine.isPlain_body {r : Routine} (callee : IsWrittenAs IsFreePath r.callee)
    (marked : r.body.guard ≠ []) (named : ∀ f ∈ r.arguments, IsParameterName f.name) :
    r.body.IsPlain := by
  have nonempty : r.arguments ≠ [] := by
    intro none
    exact marked (by simp [Routine.body, none])
  refine ⟨marked, ?_, ?_, ?_⟩
  · intro name mem
    obtain ⟨f, inside, rfl⟩ := List.mem_map.1 mem
    exact named f (List.mem_filter.1 inside).1
  · intro s mem
    rcases List.mem_cons.1 mem with rfl | mem
    · refine isPlain_forward callee (by simpa using nonempty) fun a inside => ?_
      obtain ⟨f, listed, rfl⟩ := List.mem_map.1 inside
      exact named f listed
    · split at mem
      · rw [List.mem_singleton.1 mem]
        intro c call
        cases call
      · cases mem
  · intro s mem
    rw [List.mem_singleton.1 mem]
    refine isPlain_forward callee (by simpa using nonempty) fun a inside => ?_
    obtain ⟨f, listed, rfl⟩ := List.mem_map.1 inside
    rw [f.name_synthesized]
    exact named f listed

/-- The lines of a body are cut into a block, also when the lines are placed otherwise. -/
theorem Body.IsPlain.exists_pieces {b : Body} (plain : b.IsPlain) (place : String → String)
    (keeps : ∀ line ps, Lexes line ps → Lexes (place line) ps) :
    ∃ more, LexesLines (b.lines.map place) (symbolPiece "\x7b" :: more) ∧
      Takes .block (symbolPiece "\x7b" :: more) Anything := by
  obtain ⟨guard, guardLexes, expression⟩ := isWrittenAs_guard plain.nonempty plain.named
  obtain ⟨guarded, guardedLexes, areGuarded⟩ :=
    exists_statementPieces (fun line => place (indentTwice line)) (fun line ps lexes => by
      rw [indentTwice, String.append_assoc]
      exact keeps _ _ lexes.indent.indent) plain.guarded
  obtain ⟨after, afterLexes, areAfter⟩ :=
    exists_statementPieces (fun line => place (Source.indent ++ line))
      (fun line ps lexes => keeps _ _ lexes.indent) plain.after
  have test : Lexes ("if (" ++ guardText b.guard ++ ")")
      (wordPiece "if".toList :: (symbolPiece "(" :: (guard ++ [symbolPiece ")"]))) := by
    intro rest qs _ later
    have closes : Cuts (')' :: _) _ := later.firm (s := ")") (by decide)
    have inside := guardLexes _ _ (stops_cons (by decide) _) closes
    have opens : Cuts ('(' :: _) _ := inside.firm (s := "(") (by decide)
    have whole := opens.blank.word (w := "if".toList) (by decide) (stops_cons (by decide) _)
    simpa using whole
  have choice := isStatement_if expression (isStatement_block areGuarded)
  have placed {line : String} {ps : List Piece} (lexes : Lexes line ps) :
      LexesLines [place line] ps := (keeps line ps lexes).single
  have begins := lexes_firm (s := "\x7b") (by decide)
  have ends := lexes_firm (s := "\x7d") (by decide)
  refine ⟨_, ?_, takes_block (List.forall_mem_cons.2 ⟨choice, areAfter⟩)⟩
  have whole := (placed begins).append <| (placed test.indent).append <|
    (placed begins.indent).append <| guardedLexes.append <| (placed ends.indent).append <|
    (placed lexes_empty).append <| afterLexes.append (placed ends)
  simpa [Body.lines, Function.comp_def, String.append_assoc] using whole

end CallSiteIds.Source
