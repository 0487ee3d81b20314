import CallSiteIds.Proofs.Source.Declarations
import CallSiteIds.Proofs.Source.PlainTexts

/-!
# The declaration of the tag attribute

A generated file may declare the tag attribute itself.  Its declaration is fixed text, so it is
given here as lines of parts of which each fits what follows; the pieces of the parts are then a
namespace with one class in which nothing is found.
-/

set_option autoImplicit false

namespace CallSiteIds.Source

/-! ## Fixed lines -/

/-- A part of a fixed line. -/
inductive Part where
  | blanks (count : Nat)
  | word (word : String)
  /-- A name directly after a point. -/
  | tight (name : String)
  | firm (symbol : String)
  | spaced (symbol : String)
  | literal (value : String)
deriving DecidableEq, Repr

namespace Part

def text : Part → List Char
  | blanks count => List.replicate count ' '
  | word w => w.toList
  | tight name => '.' :: name.toList
  | firm s => s.toList
  | spaced s => s.toList
  | literal value => regularLiteral value.toList

def pieces : Part → List Piece
  | blanks _ => []
  | word w => [wordPiece w.toList]
  | tight name => [symbolPiece ".", ⟨.word, name.toList, true⟩]
  | firm s => [symbolPiece s]
  | spaced s => [symbolPiece s]
  | literal value => [textPiece (regularLiteral value.toList)]

/-- Tells whether a part stays as it is in front of a character. -/
def fits (next : Char) : Part → Bool
  | blanks _ => true
  | word w => isName w.toList && stops.contains next
  | tight name => isName name.toList && stops.contains next
  | firm s => firmSymbols.contains s
  | spaced s => spacedSymbols.contains s && next == ' '
  | literal _ => stops.contains next

/-- The first character of a line of parts. -/
def first (parts : List Part) : Char :=
  (parts.flatMap text).headD '\n'

/-- Tells whether all parts of a line stay as they are. -/
def allFit : List Part → Bool
  | [] => true
  | p :: parts => p.fits (first parts) && allFit parts

end Part

theorem cuts_replicate {rest : List Char} {qs : List Piece} (later : Cuts rest qs) (count : Nat) :
    Cuts (List.replicate count ' ' ++ rest) qs := by
  induction count with
  | zero => exact later
  | succ count ih => exact ih.blank

/-- A part that fits adds its pieces. -/
theorem cuts_part {p : Part} {c : Char} (fits : p.fits c = true) {rest : List Char}
    {qs : List Piece} (later : Cuts (c :: rest) qs) :
    Cuts (p.text ++ c :: rest) (p.pieces ++ qs) := by
  have apart (h : stops.contains c = true) : Stops (c :: rest) :=
    stops_cons (List.contains_iff_mem.1 h) rest
  cases p with
  | blanks count => exact cuts_replicate later count
  | word w =>
    obtain ⟨named, stop⟩ := Bool.and_eq_true_iff.1 fits
    exact later.word named (apart stop)
  | tight name =>
    obtain ⟨named, stop⟩ := Bool.and_eq_true_iff.1 fits
    exact @Cuts.pointed [] _ _ _ (by simp) named (apart stop).notWord later
  | firm s => exact later.firm (List.contains_iff_mem.1 fits)
  | spaced s =>
    obtain ⟨listed, blank⟩ := Bool.and_eq_true_iff.1 fits
    obtain rfl := beq_iff_eq.1 blank
    exact later.spaced (List.contains_iff_mem.1 listed)
  | literal value => exact later.regular _ (apart fits)

theorem cuts_parts {parts : List Part} (fits : Part.allFit parts = true) {rest : List Char}
    {qs : List Piece} (later : Cuts rest qs) :
    Cuts (parts.flatMap Part.text ++ '\n' :: rest) (parts.flatMap Part.pieces ++ qs) := by
  induction parts with
  | nil => exact later.feed
  | cons p parts ih =>
    obtain ⟨here, fits⟩ := Bool.and_eq_true_iff.1 fits
    have others := ih fits
    have split : ∃ more, parts.flatMap Part.text ++ '\n' :: rest = Part.first parts :: more := by
      unfold Part.first
      cases parts.flatMap Part.text with
      | nil => exact ⟨rest, rfl⟩
      | cons c cs => exact ⟨cs ++ '\n' :: rest, rfl⟩
    obtain ⟨more, same⟩ := split
    rw [List.flatMap_cons, List.flatMap_cons, List.append_assoc, List.append_assoc, same]
    rw [same] at others
    exact cuts_part here others

/-- Lines that are written by parts are cut into the pieces of the parts. -/
theorem lexesLines_parts {lines : List String} {parts : List (List Part)}
    (written : lines.map String.toList = parts.map fun line => line.flatMap Part.text)
    (fits : parts.all Part.allFit = true) :
    LexesLines lines (parts.flatMap fun line => line.flatMap Part.pieces) := by
  induction parts generalizing lines with
  | nil =>
    rw [List.map_eq_nil_iff.1 written]
    exact lexesLines_nil
  | cons line parts ih =>
    obtain ⟨text, lines, rfl, first, others⟩ := List.map_eq_cons_iff.1 written
    rw [List.all_cons, Bool.and_eq_true] at fits
    have here : LexesLines [text] (line.flatMap Part.pieces) := by
      intro rest qs later
      simpa [linesText, first] using cuts_parts fits.1 later
    exact here.append (ih others fits.2)

/-! ## The declaration -/

section Lines

open Source.Part

/-- A type from the root namespace. -/
def globalParts (names : List String) : List Part :=
  word "global" :: firm "::" :: word "System" :: names.map tight

/-- A parameter with its type. -/
def parameterParts (parameter : String × String) : List Part :=
  [word parameter.1, blanks 1, word parameter.2]

/-- A line that uses a parameter. -/
def discardParts (parameter : String × String) : List Part :=
  [blanks 12, word "_", blanks 1, spaced "=", blanks 1, word parameter.2, firm ";"]

/-- The lines of a constructor that does nothing with its parameters. -/
def constructorParts (parameters : List (String × String)) : List (List Part) :=
  (blanks 8 :: word "public" :: blanks 1 :: word "InterceptsLocationAttribute" :: firm "(" ::
    [firm ",", blanks 1].intercalate (parameters.map parameterParts) ++ [firm ")"]) ::
  [blanks 8, firm "\x7b"] ::
  parameters.map discardParts ++ [[blanks 8, firm "\x7d"]]

/-- The lines of the declaration. -/
def attributeParts : List (List Part) :=
  [word "namespace", blanks 1, word "System", tight "Runtime", tight "CompilerServices"] ::
  [firm "\x7b"] ::
  (blanks 4 :: firm "[" :: globalParts ["Diagnostics", "Conditional"] ++
    [firm "(", literal "DEBUG", firm ")", firm "]"]) ::
  (blanks 4 :: firm "[" :: globalParts ["AttributeUsage"] ++
    firm "(" :: globalParts ["AttributeTargets", "Method"] ++
    [firm ",", blanks 1, word "AllowMultiple", blanks 1, spaced "=", blanks 1, word "true",
      firm ")", firm "]"]) ::
  (blanks 4 :: word "file" :: blanks 1 :: word "sealed" :: blanks 1 :: word "class" :: blanks 1 ::
    word "InterceptsLocationAttribute" :: blanks 1 :: spaced ":" :: blanks 1 ::
    globalParts ["Attribute"]) ::
  [blanks 4, firm "\x7b"] ::
  constructorParts [("int", "version"), ("string", "data")] ++ [] ::
  constructorParts [("string", "filePath"), ("int", "line"), ("int", "character")] ++
  [[blanks 4, firm "\x7d"], [firm "\x7d"]]

end Lines

theorem toList_attributeDeclaration : attributeDeclaration.map String.toList =
    attributeParts.map fun line => line.flatMap Part.text := by
  decide +kernel

theorem allFit_attributeParts : attributeParts.all Part.allFit = true := by
  decide +kernel

open Grammar Declaration

theorem isFree_word {w : String} (free : w ∉ meaningfulWords) : IsFree (wordPiece w.toList) :=
  ⟨rfl, by rwa [wordPiece, String.ofList_toList]⟩

theorem isStatement_assignment {target value : Piece} (first : IsFree target)
    (second : IsFree value) :
    IsStatement [target, symbolPiece "=", value, symbolPiece ";"] := by
  have whole : IsPathExpression ([target] ++ symbolPiece "=" :: ([value] ++ [])) :=
    ⟨isExpression_append (isOperand_word first) (.cons (by decide) (isOperand_word second) .nil),
      target, [], "=", [value], rfl, first, by simp [IsPath], by decide⟩
  exact whole.isStatement

/-- The parameters of a constructor: their types are predefined and their names are free. -/
def AreSimple (parameters : List (String × String)) : Prop :=
  ∀ x ∈ parameters, x.1 ∈ predefinedTypes ∧ x.2 ∉ meaningfulWords

/-- The pieces of a constructor behind its modifiers. -/
def constructorPieces (parameters : List (String × String)) : List Piece :=
  wordPiece "InterceptsLocationAttribute".toList :: functionPieces
    (parameters.map fun x => [wordPiece x.1.toList, wordPiece x.2.toList])
    (symbolPiece "\x7b" :: ((parameters.map fun x => [wordPiece "_".toList, symbolPiece "=",
      wordPiece x.2.toList, symbolPiece ";"]).flatten ++ [symbolPiece "\x7d"]))

/-- A constructor is a member in which nothing is found. -/
theorem isMember_constructor {parameters : List (String × String)} (nonempty : parameters ≠ [])
    (simple : AreSimple parameters) :
    IsMember (wordPiece "public".toList :: constructorPieces parameters) [] := by
  have function : IsFunction (parameters.map fun x => [wordPiece x.1.toList, wordPiece x.2.toList])
      (symbolPiece "\x7b" :: ((parameters.map fun x => [wordPiece "_".toList, symbolPiece "=",
        wordPiece x.2.toList, symbolPiece ";"]).flatten ++ [symbolPiece "\x7d"])) := by
    refine ⟨by simpa using nonempty, ?_, ⟨_, rfl⟩, takes_block ?_⟩
    · intro ps mem
      obtain ⟨x, inside, rfl⟩ := List.mem_map.1 mem
      obtain ⟨listed, free⟩ := simple x inside
      exact takes_parameter false (.predefined listed) false (isFree_word free).word (.inl rfl)
    · intro ps mem
      obtain ⟨x, inside, rfl⟩ := List.mem_map.1 mem
      exact isStatement_assignment (isFree_word (by decide +kernel))
        (isFree_word (simple x inside).2)
  have free : IsFree (wordPiece "InterceptsLocationAttribute".toList) :=
    isFree_word (by decide +kernel)
  have attributes : ∀ a ∈ ([] : List (List Piece × List (List Piece))), IsAttribute a.1 a.2 := by
    simp
  exact (isDeclaration_constructor free function).isMember attributes
    (areModifiers_nil.cons (w := "public") (by decide) (by decide)) fun _ _ => rfl

/-- The pieces of a type from the root namespace. -/
def globalPieces (names : List String) : List Piece :=
  wordPiece "global".toList :: pathPieces (("::", wordPiece "System".toList) :: pointed names)

theorem isPath_global (names : List String) :
    IsPath (("::", wordPiece "System".toList) :: pointed names) :=
  List.forall_mem_cons.2 ⟨⟨List.mem_cons_of_mem _ List.mem_cons_self, rfl⟩, isPath_pointed names⟩

/-- The attributes of the declared class. -/
def classAttributes : List (List Piece × List (List Piece)) :=
  [ (globalPieces ["Diagnostics", "Conditional"],
      [[textPiece (regularLiteral "DEBUG".toList)]]),
    (globalPieces ["AttributeUsage"],
      [globalPieces ["AttributeTargets", "Method"],
        [wordPiece "AllowMultiple".toList, symbolPiece "=", wordPiece "true".toList]]) ]

theorem isAttribute_of_mem_classAttributes :
    ∀ a ∈ classAttributes, IsAttribute a.1 a.2 := by
  have path (names : List String) : ∃ p segments, globalPieces names = p :: pathPieces segments ∧
      p.kind = .word ∧ IsPath segments := ⟨_, _, rfl, rfl, isPath_global names⟩
  have text := (isOperand_text (regularLiteral "DEBUG".toList)).isExpression
  have target : IsExpression (globalPieces ["AttributeTargets", "Method"] ++ []) :=
    (isOperand_path (isFree_word (by decide +kernel)) (isPath_global _) (.inl rfl)
      hasNoColon_nil).isExpression
  have flag : IsExpression ([wordPiece "AllowMultiple".toList] ++
      symbolPiece "=" :: ([wordPiece "true".toList] ++ [])) :=
    isExpression_append (isOperand_word (isFree_word (by decide +kernel)))
      (.cons (by decide) (isOperand_constant (by decide)) .nil)
  intro a mem
  rcases List.mem_pair.1 mem with rfl | rfl
  · exact ⟨path _, by simp, List.forall_mem_singleton.2 text⟩
  · refine ⟨path _, by simp, List.forall_mem_cons.2 ⟨?_, List.forall_mem_singleton.2 flag⟩⟩
    rwa [List.append_nil] at target

/-- The pieces of the members of the declared class. -/
def classMembers : List (List Piece × List (String × List String)) :=
  [[("int", "version"), ("string", "data")],
    [("string", "filePath"), ("int", "line"), ("int", "character")]].map fun parameters =>
      (wordPiece "public".toList :: constructorPieces parameters, [])

theorem isMember_of_mem_classMembers : ∀ i ∈ classMembers, IsMember i.1 i.2 := by
  intro i mem
  obtain ⟨parameters, inside, rfl⟩ := List.mem_map.1 mem
  have simple : ∀ parameters ∈ [[("int", "version"), ("string", "data")],
      [("string", "filePath"), ("int", "line"), ("int", "character")]],
      parameters ≠ [] ∧ ∀ x ∈ parameters, x.1 ∈ predefinedTypes ∧ x.2 ∉ meaningfulWords := by
    decide +kernel
  obtain ⟨nonempty, each⟩ := simple parameters inside
  exact isMember_constructor nonempty each

/-- The pieces of the declared class. -/
def attributeClass : List Piece :=
  attributeListPieces classAttributes ++
    ([wordPiece "file".toList, wordPiece "sealed".toList] ++
      classPieces (wordPiece "InterceptsLocationAttribute".toList)
        (symbolPiece ":" :: globalPieces ["Attribute"]) (classMembers.flatMap Prod.fst))

theorem isMember_attributeClass : IsMember attributeClass [] := by
  have base : IsBase (symbolPiece ":" :: globalPieces ["Attribute"]) :=
    .inr ⟨_, _, rfl, isFree_word (by decide +kernel), isPath_global _⟩
  have word : (wordPiece "InterceptsLocationAttribute".toList).kind = .word := rfl
  have declaration := isDeclaration_class word base isMember_of_mem_classMembers
  have modifiers : AreModifiers [wordPiece "file".toList, wordPiece "sealed".toList] :=
    (areModifiers_nil.cons (w := "sealed") (by decide) (by decide)).file
  exact declaration.isMember isAttribute_of_mem_classAttributes modifiers fun _ _ => rfl

/-- The declaration of the tag attribute is a namespace in which nothing is found. -/
theorem exists_attributeDeclaration :
    ∃ ps, LexesLines attributeDeclaration ps ∧ IsUnitItem ps [] := by
  refine ⟨_, lexesLines_parts toList_attributeDeclaration allFit_attributeParts, ?_⟩
  have word : (wordPiece "System".toList).kind = .word := rfl
  exact isUnitItem_namespace word (isPath_pointed ["Runtime", "CompilerServices"])
    isMember_attributeClass

end CallSiteIds.Source
