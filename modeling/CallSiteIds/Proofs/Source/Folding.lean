import CallSiteIds.Proofs.Source.Units
import CallSiteIds.Proofs.Text.Folding

/-!
# Folded source

The only carriage returns of a file of plain routines stand in the paths of its tags.  So a file
whose line terminators are folded is the file of the same routines with folded tags
(`foldNewlines_unitText`), and a folded tag is the tag of the folded path (`foldLine_tagText`).
-/

set_option autoImplicit false

namespace CallSiteIds.Source

open Text (foldNewlines)

/-! ## Lines without carriage returns -/

/-- A text without a carriage return. -/
def HasNoReturn (s : String) : Prop :=
  '\r' ∉ s.toList

instance (s : String) : Decidable (HasNoReturn s) :=
  inferInstanceAs (Decidable ('\r' ∉ s.toList))

@[simp] theorem hasNoReturn_append {s t : String} :
    HasNoReturn (s ++ t) ↔ HasNoReturn s ∧ HasNoReturn t := by
  simp [HasNoReturn]

@[simp] theorem hasNoReturn_empty : HasNoReturn "" := by
  simp [HasNoReturn]

theorem hasNoReturn_intercalate {sep : String} {texts : List String} (apart : HasNoReturn sep)
    (each : ∀ t ∈ texts, HasNoReturn t) : HasNoReturn (sep.intercalate texts) := by
  induction texts with
  | nil => simp [HasNoReturn]
  | cons t texts ih =>
    obtain ⟨first, each⟩ := List.forall_mem_cons.1 each
    cases texts with
    | nil => simpa using first
    | cons u texts =>
      rw [String.intercalate_cons_cons, hasNoReturn_append, hasNoReturn_append]
      exact ⟨⟨first, apart⟩, ih each⟩

@[simp] theorem hasNoReturn_indent : HasNoReturn indent := by
  decide

theorem hasNoReturn_of_isIdentifier {name : String} (h : isIdentifier name.toList = true) :
    HasNoReturn name := by
  intro mem
  have part := List.all_eq_true.1 (all_of_isIdentifier h) _ mem
  exact absurd part (by decide)

theorem hasNoReturn_escapeName {name : String} (h : isIdentifier name.toList = true) :
    HasNoReturn (escapeName name) := by
  unfold escapeName
  split
  · simp +decide [hasNoReturn_of_isIdentifier h]
  · exact hasNoReturn_of_isIdentifier h

theorem IsDotted.hasNoReturn {name : String} (dotted : IsDotted name) : HasNoReturn name := by
  intro mem
  rcases isNameChar_of_mem_isDotted dotted _ mem with part | point
  · exact absurd part (by decide)
  · exact absurd point (by decide)

theorem IsPlainType.hasNoReturn {type : String} (plain : IsPlainType type) : HasNoReturn type := by
  have predefined : ∀ t ∈ Grammar.predefinedTypes, HasNoReturn t := by decide
  obtain ⟨core, listed, written⟩ := plain
  have inner : HasNoReturn core := listed.elim (predefined core) IsDotted.hasNoReturn
  rcases written with rfl | rfl
  · exact inner
  · simp +decide [inner]

theorem IsPlainParameter.hasNoReturn {p : ParameterInfo} (plain : IsPlainParameter p) :
    HasNoReturn (parameterText p) := by
  have type := plain.type.hasNoReturn
  have name := hasNoReturn_escapeName plain.name.identifier
  unfold parameterText
  split
  · rename_i given
    rw [plain.default given]
    simp +decide [type, name]
  · simp +decide [type, name]

theorem hasNoReturn_globalType {targetType : String} (dotted : IsDotted targetType) :
    HasNoReturn (globalType targetType) := by
  rw [dotted.globalType]
  simp +decide [dotted.hasNoReturn]

theorem hasNoReturn_receiverText {targetType : String} (dotted : IsDotted targetType) :
    HasNoReturn (receiverText targetType) := by
  unfold receiverText
  simp +decide [hasNoReturn_globalType dotted]

theorem hasNoReturn_calleeText {targetType methodName : String} (dotted : IsDotted targetType)
    (plain : IsPlainName methodName) (isStatic : Bool) :
    HasNoReturn (calleeText targetType methodName isStatic) := by
  have method := hasNoReturn_of_isIdentifier plain.identifier
  unfold calleeText
  split
  · simp +decide [hasNoReturn_globalType dotted, method]
  · simp +decide [method]

theorem hasNoReturn_regularLiteral (cs : List Char) :
    HasNoReturn (String.ofList (regularLiteral cs)) := by
  intro mem
  rw [String.toList_ofList] at mem
  exact absurd (visible_of_mem_regularLiteral mem).1 (by decide)

/-! ## The lines of a routine -/

theorem Argument.hasNoReturn {a : Argument} (named : isIdentifier a.name.toList = true) :
    HasNoReturn a.text := by
  cases a with
  | passed name => exact hasNoReturn_escapeName named
  | orLiteral name literal =>
    have written : HasNoReturn (escapeName name) := hasNoReturn_escapeName named
    simp +decide [Argument.text, written, hasNoReturn_regularLiteral]

/-- The parts of a routine other than its tag hold no carriage return. -/
structure Routine.IsReturnless (r : Routine) : Prop where
  name : HasNoReturn r.name
  returnType : HasNoReturn r.returnType
  callee : HasNoReturn r.callee
  parameters : ∀ t ∈ r.parameters, HasNoReturn t
  arguments : ∀ f ∈ r.arguments, isIdentifier f.name.toList = true

namespace Routine.IsReturnless

variable {r : Routine} (plain : r.IsReturnless)

include plain

theorem signature : HasNoReturn r.signature := by
  have parameters : HasNoReturn (", ".intercalate r.parameters) :=
    hasNoReturn_intercalate (by decide) plain.parameters
  have written : r.signature = "public static " ++ r.returnType ++ " " ++ r.name ++ "(" ++
    ", ".intercalate r.parameters ++ ")" := rfl
  rw [written]
  simp +decide [plain.returnType, plain.name, parameters]

theorem forward {arguments : List Argument}
    (named : ∀ a ∈ arguments, isIdentifier a.name.toList = true) :
    HasNoReturn (r.forward arguments).text := by
  have passed : HasNoReturn (", ".intercalate (arguments.map Argument.text)) := by
    refine hasNoReturn_intercalate (by decide) fun t mem => ?_
    obtain ⟨a, inside, rfl⟩ := List.mem_map.1 mem
    exact Argument.hasNoReturn (named a inside)
  have call : HasNoReturn (Call.text ⟨r.callee, arguments⟩) := by
    unfold Call.text
    simp +decide [plain.callee, passed]
  unfold Routine.forward
  split
  · exact call
  · unfold Statement.text
    simp +decide [call]

theorem guard : HasNoReturn (guardText r.body.guard) := by
  refine hasNoReturn_intercalate (by decide) fun t mem => ?_
  obtain ⟨name, inside, rfl⟩ := List.mem_map.1 mem
  obtain ⟨f, marked, rfl⟩ := List.mem_map.1 inside
  simp +decide [hasNoReturn_escapeName (plain.arguments f (List.mem_of_mem_filter marked))]

theorem lines : ∀ line ∈ r.signature :: r.body.lines, HasNoReturn line := by
  have passed : ∀ a ∈ r.arguments.map Forwarded.plain, isIdentifier a.name.toList = true := by
    intro a mem
    obtain ⟨f, inside, rfl⟩ := List.mem_map.1 mem
    exact plain.arguments f inside
  have synthesized : ∀ a ∈ r.arguments.map Forwarded.synthesized,
      isIdentifier a.name.toList = true := by
    intro a mem
    obtain ⟨f, inside, rfl⟩ := List.mem_map.1 mem
    unfold Forwarded.synthesized
    split <;> exact plain.arguments f inside
  have guarded : ∀ s ∈ r.body.guarded, HasNoReturn s.text := by
    refine List.forall_mem_cons.2 ⟨plain.forward passed, fun s mem => ?_⟩
    split at mem
    · rw [List.mem_singleton.1 mem]
      decide
    · cases mem
  have after : ∀ s ∈ r.body.after, HasNoReturn s.text :=
    List.forall_mem_singleton.2 (plain.forward synthesized)
  refine List.forall_mem_cons.2 ⟨plain.signature, ?_⟩
  have opening : HasNoReturn (indent ++ "if (" ++ guardText r.body.guard ++ ")") := by
    simp +decide [plain.guard]
  have written : r.body.lines =
      [ "\x7b", indent ++ "if (" ++ guardText r.body.guard ++ ")", indent ++ "\x7b" ] ++
        r.body.guarded.map (fun s => indentTwice s.text) ++ [ indent ++ "\x7d", "" ] ++
        r.body.after.map (fun s => indent ++ s.text) ++ [ "\x7d" ] := rfl
  rw [written]
  simp only [List.forall_mem_append, List.forall_mem_map]
  refine ⟨⟨⟨⟨?_, fun s mem => ?_⟩, ?_⟩, fun s mem => ?_⟩, by decide⟩
  · simp +decide [opening]
  · simp [indentTwice, guarded s mem]
  · simp +decide
  · simp [after s mem]

end Routine.IsReturnless

/-! ## Folding lines -/

/-- A line with its line terminators folded. -/
def foldLine (line : String) : String :=
  String.ofList (foldNewlines line.toList)

theorem foldLine_eq_self {line : String} (plain : HasNoReturn line) : foldLine line = line := by
  rw [foldLine, Text.foldNewlines_eq_self plain, String.ofList_toList]

/-- A line that does not end with a carriage return, which would swallow its line feed. -/
def EndsApart (line : String) : Prop :=
  line.toList.getLast? ≠ some '\r'

theorem HasNoReturn.endsApart {line : String} (plain : HasNoReturn line) : EndsApart line :=
  fun last => plain (List.mem_of_getLast? last)

/-- Lines are folded one by one. -/
theorem foldNewlines_linesText {lines : List String} (apart : ∀ l ∈ lines, EndsApart l) :
    foldNewlines (linesText lines) = linesText (lines.map foldLine) := by
  induction lines with
  | nil => rfl
  | cons line lines ih =>
    obtain ⟨first, apart⟩ := List.forall_mem_cons.1 apart
    rw [linesText_cons, Text.foldNewlines_append fun last => absurd last first,
      Text.foldNewlines_cons (by decide), ih apart, List.map_cons, linesText_cons, foldLine,
      String.toList_ofList]

theorem foldLine_append {s t : String}
    (seam : s.toList.getLast? = some '\r' → t.toList.head? ≠ some '\n') :
    foldLine (s ++ t) = foldLine s ++ foldLine t := by
  rw [← String.toList_inj]
  simp only [foldLine, String.toList_append, String.toList_ofList]
  exact Text.foldNewlines_append seam

/-- Nothing is folded in front of a line but its own terminators. -/
theorem foldLine_append_left {s t : String} (plain : HasNoReturn s) :
    foldLine (s ++ t) = s ++ foldLine t := by
  rw [foldLine_append fun last => absurd last plain.endsApart, foldLine_eq_self plain]

theorem foldLine_append_right {s t : String} (plain : HasNoReturn t)
    (visible : t.toList.head? ≠ some '\n') : foldLine (s ++ t) = foldLine s ++ t := by
  rw [foldLine_append fun _ => visible, foldLine_eq_self plain]

theorem foldLine_memberLine (line : String) :
    foldLine (memberLine line) = memberLine (foldLine line) := by
  have empty : (foldLine line).isEmpty = line.isEmpty := by
    rw [Bool.eq_iff_iff, String.isEmpty_iff, String.isEmpty_iff, ← String.toList_inj,
      ← String.toList_inj, foldLine, String.toList_ofList]
    exact Text.foldNewlines_eq_nil_iff
  unfold memberLine
  rw [empty]
  split
  · exact foldLine_eq_self hasNoReturn_empty
  · rw [indentTwice, indentTwice]
    exact foldLine_append_left (by simp)

theorem endsApart_append {s t : String} (plain : HasNoReturn s) (apart : EndsApart t) :
    EndsApart (s ++ t) := by
  rw [EndsApart, String.toList_append, List.getLast?_append]
  cases last : t.toList.getLast? with
  | none => exact plain.endsApart
  | some c =>
    rw [EndsApart, last] at apart
    exact apart

theorem endsApart_memberLine {line : String} (apart : EndsApart line) :
    EndsApart (memberLine line) := by
  unfold memberLine
  split
  · exact hasNoReturn_empty.endsApart
  · exact endsApart_append (by simp) apart

theorem map_foldLine_memberLines (routines : List (List String)) :
    (memberLines routines).map foldLine = memberLines (routines.map (List.map foldLine)) := by
  fun_induction memberLines routines with
  | case1 => rfl
  | case2 routine =>
    simp only [List.map_cons, List.map_nil, memberLines, List.map_map]
    exact List.map_congr_left fun line _ => foldLine_memberLine line
  | case3 routine rest more ih =>
    have others : rest.map (List.map foldLine) = [] → False := fun none =>
      more (List.map_eq_nil_iff.1 none)
    have empty : foldLine "" = "" := foldLine_eq_self hasNoReturn_empty
    rw [List.map_cons, memberLines.eq_3 _ _ others, List.map_append, List.map_cons, ih, empty,
      List.map_map, List.map_map]
    exact congrArg (· ++ _) (List.map_congr_left fun line _ => foldLine_memberLine line)

/-- What holds of an empty line and of the lines of routines holds of their lines in the class. -/
theorem forall_mem_memberLines {P : String → Prop} {routines : List (List String)} (empty : P "")
    (each : ∀ routine ∈ routines, ∀ line ∈ routine, P (memberLine line)) :
    ∀ line ∈ memberLines routines, P line := by
  fun_induction memberLines routines with
  | case1 => simp
  | case2 routine => exact List.forall_mem_map.2 (each routine List.mem_cons_self)
  | case3 routine rest _ ih =>
    obtain ⟨first, each⟩ := List.forall_mem_cons.1 each
    rw [List.forall_mem_append, List.forall_mem_map, List.forall_mem_cons]
    exact ⟨first, empty, ih each⟩

theorem map_foldLine_eq_self {lines : List String} (plain : ∀ l ∈ lines, HasNoReturn l) :
    lines.map foldLine = lines := by
  rw [List.map_congr_left fun l mem => foldLine_eq_self (plain l mem), List.map_id']

/-! ## Folding files -/

/-- The lines in front of the routines of a file. -/
def frontLines (options : UnitOptions) : List String :=
  [header, "#nullable enable", ""] ++
    (if options.declaresAttribute then attributeDeclaration ++ [""] else []) ++
    [ "namespace " ++ options.namespaceName, "\x7b",
      indent ++ "file static class " ++ options.className, indent ++ "\x7b" ]

/-- The lines behind the routines of a file. -/
def backLines : List String :=
  [indent ++ "\x7d", "\x7d"]

theorem hasNoReturn_frontLines {options : UnitOptions} (named : options.IsPlain) :
    ∀ line ∈ frontLines options, HasNoReturn line := by
  have first : ∀ line ∈ [header, "#nullable enable", ""], HasNoReturn line := by decide
  have declaration : ∀ line ∈ attributeDeclaration ++ [""], HasNoReturn line := by decide +kernel
  have className := hasNoReturn_of_isIdentifier named.className.identifier
  unfold frontLines
  rw [List.forall_mem_append, List.forall_mem_append]
  refine ⟨⟨first, ?_⟩, ?_⟩
  · split
    · exact declaration
    · simp
  · simp +decide [named.namespaceName.hasNoReturn, className]

theorem unitLines_eq (options : UnitOptions) (routines : List (List String)) :
    unitLines options routines = frontLines options ++ memberLines routines ++ backLines :=
  rfl

/-- A routine with its tag folded. -/
def Routine.folded (r : Routine) : Routine :=
  { r with tag := foldLine r.tag }

theorem Routine.IsReturnless.lines_folded {r : Routine} (plain : r.IsReturnless) :
    r.folded.lines = r.lines.map foldLine := by
  have others := map_foldLine_eq_self plain.lines
  show foldLine r.tag :: (r.signature :: r.body.lines) = _
  rw [← others]
  rfl

/-- Folding a file folds the tags of its routines. -/
theorem foldNewlines_unitText {options : UnitOptions} (named : options.IsPlain)
    {routines : List Routine} (plain : ∀ r ∈ routines, r.IsReturnless)
    (apart : ∀ r ∈ routines, EndsApart r.tag) :
    foldNewlines (unitText options (routines.map Routine.lines)).toList =
      (unitText options ((routines.map Routine.folded).map Routine.lines)).toList := by
  have front := hasNoReturn_frontLines named
  have back : ∀ line ∈ backLines, HasNoReturn line := by decide
  have members : ∀ line ∈ memberLines (routines.map Routine.lines), EndsApart line := by
    refine forall_mem_memberLines hasNoReturn_empty.endsApart fun lines mem => ?_
    obtain ⟨r, inside, rfl⟩ := List.mem_map.1 mem
    intro line mem
    rcases List.mem_cons.1 mem with rfl | mem
    · exact endsApart_memberLine (apart r inside)
    · exact endsApart_memberLine ((plain r inside).lines line mem).endsApart
  have folded : (routines.map Routine.lines).map (List.map foldLine) =
      (routines.map Routine.folded).map Routine.lines := by
    rw [List.map_map, List.map_map]
    exact List.map_congr_left fun r mem => (plain r mem).lines_folded.symm
  by_cases nonempty : routines = []
  · subst nonempty
    have empty : HasNoReturn (header ++ "\n") := by decide
    exact Text.foldNewlines_eq_self empty
  · have lines : ∀ line ∈ unitLines options (routines.map Routine.lines), EndsApart line := by
      rw [unitLines_eq, List.forall_mem_append, List.forall_mem_append]
      exact ⟨⟨fun line mem => (front line mem).endsApart, members⟩,
        fun line mem => (back line mem).endsApart⟩
    rw [toList_unitText_eq_linesText options (by simpa using nonempty),
      toList_unitText_eq_linesText options (by simpa using nonempty), foldNewlines_linesText lines,
      unitLines_eq, unitLines_eq, List.map_append, List.map_append, map_foldLine_memberLines,
      folded, map_foldLine_eq_self front, map_foldLine_eq_self back]

/-! ## Folding tags -/

theorem foldNewlines_flatMap_verbatimChar (cs : List Char) :
    foldNewlines (cs.flatMap verbatimChar) = (foldNewlines cs).flatMap verbatimChar := by
  fun_induction foldNewlines cs with
  | case1 => rfl
  | case2 rest ih =>
    have plain : verbatimChar '\r' = ['\r'] ∧ verbatimChar '\n' = ['\n'] := by decide
    simp only [List.flatMap_cons, plain, List.cons_append, List.nil_append, foldNewlines, ih]
  | case3 rest apart ih =>
    have plain : verbatimChar '\r' = ['\r'] ∧ verbatimChar '\n' = ['\n'] := by decide
    have next : (rest.flatMap verbatimChar).head? ≠ some '\n' := by
      cases rest with
      | nil => simp
      | cons c rest =>
        have other : c ≠ '\n' := fun same => apart rest (by rw [same])
        by_cases quote : c = '"' <;> simp [verbatimChar, quote, other]
    simp only [List.flatMap_cons, plain, List.cons_append, List.nil_append]
    rw [Text.foldNewlines_return next, ih]
  | case4 c rest _ other ih =>
    have plain : '\r' ∉ verbatimChar c := by
      unfold verbatimChar
      split <;> simp [Ne.symm other]
    have apart : (verbatimChar c).getLast? ≠ some '\r' :=
      fun last => plain (List.mem_of_getLast? last)
    rw [List.flatMap_cons, List.flatMap_cons,
      Text.foldNewlines_append fun last => absurd last apart, Text.foldNewlines_eq_self plain, ih]

/-- A folded verbatim literal is the literal of the folded text. -/
theorem foldLine_verbatimLiteral (cs : List Char) :
    foldLine (String.ofList (verbatimLiteral cs)) =
      String.ofList (verbatimLiteral (foldNewlines cs)) := by
  have close : foldNewlines (cs.flatMap verbatimChar ++ ['"']) =
      (foldNewlines cs).flatMap verbatimChar ++ ['"'] := by
    rw [Text.foldNewlines_append fun _ => by decide, foldNewlines_flatMap_verbatimChar]
    rfl
  rw [foldLine, String.toList_ofList, verbatimLiteral, verbatimLiteral, List.cons_append,
    List.cons_append, Text.foldNewlines_cons (by decide), Text.foldNewlines_cons (by decide), close]
  rfl

end CallSiteIds.Source

namespace CallSiteIds

open Source

/-- A place whose path is folded. -/
def SourceLocation.folded (l : SourceLocation) : SourceLocation :=
  { l with path := foldLine l.path }

namespace Source

theorem endsApart_tagText (l : SourceLocation) (data : Option String) :
    EndsApart (tagText l data) := by
  have last : "]".toList.getLast? = some ']' := by decide
  rw [EndsApart, tagText, String.toList_append, List.getLast?_append, last]
  simp

theorem hasNoReturn_integerString (i : Int) : HasNoReturn (Decimal.integerString i) := by
  rw [HasNoReturn, Decimal.integerString, String.toList_ofList]
  exact Decimal.notMem_integerText (by decide) (by decide) i

/-- A folded tag is the tag of the folded path. -/
theorem foldLine_tagText (l : SourceLocation) (data : Option String) :
    foldLine (tagText l data) = tagText l.folded data := by
  have opens : HasNoReturn ("[" ++ tagAttribute ++ "(") := by decide
  cases data with
  | some data =>
    refine foldLine_eq_self ?_
    have whole : tagText l (some data) = "[" ++ tagAttribute ++ "(" ++ "1, " ++
        String.ofList (regularLiteral data.toList) ++ ")]" := by
      simp [tagText, tagArguments, ← String.toList_inj]
    rw [whole]
    refine hasNoReturn_append.2 ⟨hasNoReturn_append.2 ⟨hasNoReturn_append.2 ⟨opens, ?_⟩, ?_⟩, ?_⟩
    · decide
    · exact hasNoReturn_regularLiteral _
    · decide
  | none =>
    have whole (l : SourceLocation) : tagText l none = "[" ++ tagAttribute ++ "(" ++
        (String.ofList (verbatimLiteral l.path.toList) ++ (", " ++ Decimal.integerString l.line ++
          ", " ++ Decimal.integerString l.column ++ ")]")) := by
      simp [tagText, tagArguments, ← String.toList_inj]
    have back : HasNoReturn (", " ++ Decimal.integerString l.line ++
        ", " ++ Decimal.integerString l.column ++ ")]") := by
      simp +decide [hasNoReturn_integerString]
    rw [whole, whole, foldLine_append_left opens, foldLine_append_right back (by simp),
      foldLine_verbatimLiteral]
    simp [SourceLocation.folded, foldLine]

theorem verbatimLiteral_injective : Function.Injective verbatimLiteral := by
  intro cs ds same
  have read (cs : List Char) : verbatimValue? (verbatimLiteral cs) = some (cs, []) := by
    have whole : verbatimValue? (verbatimLiteral cs ++ []) = some (cs, []) :=
      verbatimValue?_verbatimLiteral cs (by simp)
    rwa [List.append_nil] at whole
  have values := congrArg verbatimValue? same
  rw [read, read] at values
  injection values with values
  exact (Prod.mk.inj values).1

end Source

/-- The arguments of a folded tag. -/
def SourceLocation.foldedArguments (l : SourceLocation) (data : Option String) : String :=
  tagArguments l.folded.path l.line l.column data

/-- Folding leaves the arguments of a tag alone exactly when they show a token or a path without
carriage returns. -/
theorem foldedArguments_eq_iff {l : SourceLocation} {data : Option String} :
    l.foldedArguments data = tagArguments l.path l.line l.column data ↔
      (data = none → '\r' ∉ l.path.toList) := by
  cases data with
  | some data => exact iff_of_true rfl nofun
  | none =>
    have paths : l.foldedArguments none = tagArguments l.path l.line l.column none ↔
        l.folded.path = l.path := by
      refine ⟨fun same => ?_, fun same => by rw [SourceLocation.foldedArguments, same]⟩
      simp only [SourceLocation.foldedArguments, tagArguments, String.append_left_inj,
        String.append_right_inj] at same
      exact String.toList_inj.1 (verbatimLiteral_injective (String.ofList_injective same))
    rw [paths, SourceLocation.folded, foldLine, ← String.toList_inj, String.toList_ofList,
      Text.foldNewlines_eq_self_iff]
    simp

end CallSiteIds
