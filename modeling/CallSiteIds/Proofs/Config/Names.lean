import CallSiteIds.Proofs.Pass.Plans
import CallSiteIds.Proofs.Source.Folding
import CallSiteIds.Proofs.Source.Identifiers
import CallSiteIds.Proofs.Text.Splitting
import CallSiteIds.Proofs.Toml.Settings

/-!
# Names that a configuration can set

A configuration sets the name of a class and a namespace.  What is accepted is an identifier, or
identifiers joined by single dots, and in both cases one more line feed at the end, which the test
of a name does not look at (`isClassName_iff`, `isNamespace_iff`).  The two lines that declare them
in a generated file are one line each exactly when neither name has that line feed
(`declaresOnLines_iff`).  All accepted names can be set by a configuration file
(`accepted_names_iff`).
-/

set_option autoImplicit false

namespace CallSiteIds

open Schema
open Source (IsIdentifierText isIdentifier isIdentifier_iff isNameChar isLineTerminator
  notMem_of_isIdentifierText unitText)

namespace Config

/-! ## The grammar of names -/

/-- Identifiers joined by single dots. -/
inductive IsNamespaceText : List Char → Prop where
  | last {cs : List Char} (identifier : IsIdentifierText cs) : IsNamespaceText cs
  | join {cs ds : List Char} (identifier : IsIdentifierText cs) (others : IsNamespaceText ds) :
      IsNamespaceText (cs ++ '.' :: ds)

/-- A text of some kind, perhaps with one line feed behind it. -/
inductive PerhapsFed (kind : List Char → Prop) : List Char → Prop where
  | bare {cs : List Char} (h : kind cs) : PerhapsFed kind cs
  | fed {cs : List Char} (h : kind cs) : PerhapsFed kind (cs ++ ['\n'])

/-- A namespace holds no other characters than identifiers do and dots. -/
theorem notMem_of_isNamespaceText {cs : List Char} (h : IsNamespaceText cs) {c : Char}
    (other : isNameChar c = false) (dot : c ≠ '.') : c ∉ cs := by
  induction h with
  | last identifier => exact notMem_of_isIdentifierText identifier other
  | join identifier _ ih =>
    rw [List.mem_append, List.mem_cons, not_or, not_or]
    exact ⟨notMem_of_isIdentifierText identifier other, dot, ih⟩

/-- The parts between the dots of a text are identifiers exactly when it is a namespace. -/
theorem all_splitAll_iff {cs : List Char} :
    (Text.splitAll '.' cs).all isIdentifier = true ↔ IsNamespaceText cs := by
  constructor
  · intro all
    rw [← Text.intercalate_splitAll '.' cs]
    generalize parts : Text.splitAll '.' cs = names at all
    have nonempty : names ≠ [] := parts ▸ Text.splitAll_ne_nil '.' cs
    clear parts
    induction names with
    | nil => exact absurd rfl nonempty
    | cons name names ih =>
      rw [List.all_cons, Bool.and_eq_true, isIdentifier_iff] at all
      obtain ⟨identifier, others⟩ := all
      cases names with
      | nil =>
        rw [List.intercalate_singleton]
        exact .last identifier
      | cons next names =>
        rw [List.intercalate_cons_cons, List.append_assoc]
        exact .join identifier (ih others (List.cons_ne_nil _ _))
  · intro h
    have single {cs : List Char} (identifier : IsIdentifierText cs) :
        Text.splitAll '.' cs = [cs] :=
      Text.splitAll_of_notMem (notMem_of_isIdentifierText identifier (by decide))
    induction h with
    | last identifier => simp [single identifier, isIdentifier_iff.2 identifier]
    | join identifier _ ih =>
      rw [Text.splitAll_append_sep, single identifier]
      simp [isIdentifier_iff.2 identifier, ih]

section PerhapsFed

variable {kind : List Char → Prop} {cs : List Char}

/-- What is accepted without its last line feed may have it, when the kind of text has none. -/
theorem withoutLastFeed_iff (feedless : ∀ cs, kind cs → '\n' ∉ cs) :
    kind (withoutLastFeed cs) ↔ PerhapsFed kind cs := by
  constructor
  · intro h
    unfold withoutLastFeed at h
    split at h
    · rename_i last
      rw [← List.dropLast_append_getLast? '\n' last]
      exact .fed h
    · exact .bare h
  · rintro (⟨h⟩ | ⟨h⟩)
    · have last : cs.getLast? ≠ some '\n' := fun last =>
        feedless cs h (List.mem_of_getLast? last)
      rwa [withoutLastFeed, if_neg last]
    · rename_i cs
      rwa [withoutLastFeed, if_pos (List.getLast?_concat), List.dropLast_concat]

/-- A text that may have a line feed at its end is of its kind when it has none. -/
theorem PerhapsFed.bare_iff (h : PerhapsFed kind cs) (feedless : ∀ cs, kind cs → '\n' ∉ cs) :
    kind cs ↔ '\n' ∉ cs := by
  refine ⟨feedless cs, fun none => ?_⟩
  cases h with
  | bare h => exact h
  | fed h => exact absurd (List.mem_append_right _ (List.mem_singleton_self _)) none

end PerhapsFed

theorem feed_notMem_identifier (cs : List Char) (h : IsIdentifierText cs) : '\n' ∉ cs :=
  notMem_of_isIdentifierText h (by decide)

theorem feed_notMem_namespace (cs : List Char) (h : IsNamespaceText cs) : '\n' ∉ cs :=
  notMem_of_isNamespaceText h (by decide) (by decide)

/-- A name of a class is accepted when it is an identifier, perhaps with a line feed behind it. -/
theorem isClassName_iff {cs : List Char} :
    isClassName cs = true ↔ PerhapsFed IsIdentifierText cs := by
  rw [isClassName, isIdentifier_iff]
  exact withoutLastFeed_iff feed_notMem_identifier

/-- A namespace is accepted when it consists of identifiers joined by dots, perhaps with a line
feed behind it. -/
theorem isNamespace_iff {cs : List Char} :
    isNamespace cs = true ↔ PerhapsFed IsNamespaceText cs := by
  rw [isNamespace, all_splitAll_iff]
  exact withoutLastFeed_iff feed_notMem_namespace

/-! ## What is read -/

theorem string_eq_valid_iff {v : Json.Value} {s : String} :
    string v = .valid s ↔ v = .string s := by
  constructor
  · intro h
    cases v <;> cases h
    rfl
  · rintro rfl
    rfl

theorem namespaceText_eq_valid_iff {v : Json.Value} {name : String} :
    namespaceText v = .valid name ↔
      v = .string name ∧ PerhapsFed IsNamespaceText name.toList := by
  rw [namespaceText, ensure_eq_valid_iff, string_eq_valid_iff, isNamespace_iff]

theorem classText_eq_valid_iff {v : Json.Value} {name : String} :
    classText v = .valid name ↔ v = .string name ∧ PerhapsFed IsIdentifierText name.toList := by
  rw [classText, ensure_eq_valid_iff, string_eq_valid_iff, isClassName_iff]

/-- The bytes of a configuration file that sets the namespace and the class. -/
def nameSettings (namespaceName className : String) : List UInt8 :=
  Text.encodeUtf8
    (Toml.settingsText [("namespace", namespaceName), ("class_name", className)])

/-- A file that sets accepted names gives them, and leaves the other settings as usual. -/
theorem ofBytes_nameSettings {namespaceName className : String}
    (isSpace : PerhapsFed IsNamespaceText namespaceName.toList)
    (isClass : PerhapsFed IsIdentifierText className.toList) (file : Place) :
    ofBytes file (nameSettings namespaceName className) =
      .ok { usual with namespaceName, className } := by
  have bare : Toml.IsBareKey "namespace" ∧ Toml.IsBareKey "class_name" :=
    ⟨⟨by decide, List.all_eq_true.1 (by decide)⟩, ⟨by decide, List.all_eq_true.1 (by decide)⟩⟩
  have distinct : ["namespace", "class_name"].Nodup := by decide
  have settings : Toml.read (Toml.settingsText
      [("namespace", namespaceName), ("class_name", className)]) =
        .ok [("namespace", .string namespaceName), ("class_name", .string className)] :=
    Toml.read_settingsText (by simp [bare]) distinct
  have readNamespace := namespaceText_eq_valid_iff.2 ⟨rfl, isSpace⟩
  have readClass := classText_eq_valid_iff.2 ⟨rfl, isClass⟩
  have read : read (.object [("namespace", .string namespaceName),
      ("class_name", .string className)]) = .valid { usual with namespaceName, className } := by
    simp only [read, model, fieldOr, Json.field?, String.reduceEq, ↓reduceIte, readNamespace,
      readClass]
    rfl
  rw [ofBytes, nameSettings, Text.decodeUtf8?_encodeUtf8]
  simp only [settings, read]
  rfl

/-- The accepted names are those that some configuration has when it is loaded. -/
theorem exists_load_iff {namespaceName className : String} :
    (∃ t root c, load t root = .ok c ∧ c.namespaceName = namespaceName ∧
        c.className = className) ↔
      PerhapsFed IsNamespaceText namespaceName.toList ∧
        PerhapsFed IsIdentifierText className.toList := by
  constructor
  · rintro ⟨t, root, c, loaded, rfl, rfl⟩
    have valid := isValid_of_isAccepted (isAccepted_of_load loaded)
    exact ⟨isNamespace_iff.1 valid.namespaceName, isClassName_iff.1 valid.className⟩
  · rintro ⟨isSpace, isClass⟩
    -- The project holds nothing but its configuration file.
    refine ⟨FileTree.empty.put [fileName] (.file (nameSettings namespaceName className)), [],
      { usual with namespaceName, className }, ?_, rfl, rfl⟩
    exact ofBytes_nameSettings isSpace isClass [fileName]

/-! ## The lines of a file -/

/-- A line that declares the namespace of a file. -/
def namespaceLine (name : String) : List Char :=
  ("namespace " ++ name).toList

/-- A line that declares the class of a file. -/
def classLine (name : String) : List Char :=
  (Source.indent ++ "file static class " ++ name).toList

/-- The namespace and the class of a file are declared on one line each, between which an opening
brace stands on another. -/
def DeclaresOnLines (text : List Char) (namespaceName className : String) : Prop :=
  ∃ before after, Text.splitAll '\n' text =
    before ++ [namespaceLine namespaceName, ['\x7b'], classLine className] ++ after

end Config

namespace Source

/-- The lines of a text of lines are the lines of each, and an empty one at the end. -/
theorem splitAll_linesText (lines : List String) :
    Text.splitAll '\n' (linesText lines) =
      (lines.flatMap fun line => Text.splitAll '\n' line.toList) ++ [[]] := by
  induction lines with
  | nil => rfl
  | cons line lines ih =>
    rw [linesText_cons, Text.splitAll_append_sep, ih, List.flatMap_cons, List.append_assoc]

end Source

namespace Config

/-- The lines that declare the namespace and the class stand in the file with a line between. -/
theorem unitLines_names (c : Config) (routines : List (List String)) :
    ∃ before after, Source.unitLines c.unitOptions routines =
      before ++ ["namespace " ++ c.namespaceName, "\x7b",
        Source.indent ++ "file static class " ++ c.className] ++ after := by
  refine ⟨[Source.header, "#nullable enable", ""] ++
      (if c.declaresAttribute then Source.attributeDeclaration ++ [""] else []),
    (Source.indent ++ "\x7b") :: (Source.memberLines routines ++ Source.backLines), ?_⟩
  rw [Source.unitLines_eq, Source.frontLines]
  simp only [List.append_assoc]
  rfl

/-- The namespace and the class of a file with routines are declared on one line each exactly when
their names have no line feed. -/
theorem declaresOnLines_iff (c : Config) {routines : List (List String)}
    (nonempty : routines ≠ []) :
    DeclaresOnLines (unitText c.unitOptions routines).toList c.namespaceName c.className ↔
      '\n' ∉ c.namespaceName.toList ∧ '\n' ∉ c.className.toList := by
  rw [Source.toList_unitText_eq_linesText _ nonempty]
  constructor
  · rintro ⟨before, after, lines⟩
    have apart : ∀ line ∈ [namespaceLine c.namespaceName, ['\x7b'], classLine c.className],
        '\n' ∉ line := by
      intro line mem
      apply Text.notMem_of_mem_splitAll
      rw [lines]
      exact List.mem_append_left _ (List.mem_append_right _ mem)
    have space := apart _ List.mem_cons_self
    have className := apart _ (List.mem_cons_of_mem _ (List.mem_cons_of_mem _ List.mem_cons_self))
    rw [namespaceLine, String.toList_append, List.mem_append, not_or] at space
    rw [classLine, String.toList_append, List.mem_append, not_or] at className
    exact ⟨space.2, className.2⟩
  · rintro ⟨space, className⟩
    have spaceLine : Text.splitAll '\n' (namespaceLine c.namespaceName) =
        [namespaceLine c.namespaceName] := by
      apply Text.splitAll_of_notMem
      rw [namespaceLine, String.toList_append, List.mem_append, not_or]
      exact ⟨by decide, space⟩
    have oneLine : Text.splitAll '\n' (classLine c.className) = [classLine c.className] := by
      apply Text.splitAll_of_notMem
      rw [classLine, String.toList_append, List.mem_append, not_or]
      exact ⟨by decide, className⟩
    obtain ⟨before, after, lines⟩ := unitLines_names c routines
    rw [DeclaresOnLines, Source.splitAll_linesText, lines, List.flatMap_append,
      List.flatMap_append]
    refine ⟨before.flatMap fun line => Text.splitAll '\n' line.toList,
      (after.flatMap fun line => Text.splitAll '\n' line.toList) ++ [[]], ?_⟩
    rw [List.append_assoc _ _ [[]]]
    simp only [namespaceLine, classLine] at spaceLine oneLine ⊢
    simp only [List.flatMap_cons, spaceLine, oneLine]
    rfl

/-! ## Both names -/

theorem isNameChar_of_isLineTerminator {c : Char} (h : isLineTerminator c = true) :
    isNameChar c = false ∧ c ≠ '.' := by
  simp only [isLineTerminator, Bool.or_eq_true, beq_iff_eq] at h
  have large (code : 0x80 ≤ c.toNat) : isNameChar c = false ∧ c ≠ '.' := by
    refine ⟨Bool.eq_false_iff.2 fun name => ?_, ?_⟩
    · exact absurd (Source.toNat_lt_of_isNameChar name) (Nat.not_lt.2 code)
    · rintro rfl
      exact absurd code (by decide)
  rcases h with (((rfl | rfl) | code) | code) | code
  · decide
  · decide
  all_goals exact large (by omega)

/-- A text that may have a line feed at its end is of its kind when nothing in it ends a line. -/
theorem iff_of_perhapsFed {kind : List Char → Prop} {cs : List Char} (h : PerhapsFed kind cs)
    (only : ∀ cs, kind cs → ∀ c, isNameChar c = false → c ≠ '.' → c ∉ cs) :
    kind cs ↔ ∀ c ∈ cs, isLineTerminator c = false := by
  have feedless (cs : List Char) (isKind : kind cs) : '\n' ∉ cs :=
    only cs isKind '\n' (by decide) (by decide)
  constructor
  · intro isKind c mem
    refine Bool.eq_false_iff.2 fun terminator => ?_
    obtain ⟨other, dot⟩ := isNameChar_of_isLineTerminator terminator
    exact only cs isKind c other dot mem
  · intro plain
    refine (h.bare_iff feedless).2 fun mem => ?_
    exact absurd (plain '\n' mem) (by decide)

/-- The reader of settings takes as a namespace identifiers joined by single dots and as the name of
a class an identifier, each perhaps with one line feed behind it, and nothing else.  The names of
loaded configurations are all of these: whatever is accepted is set by some file.  Such a name is
a namespace, or an identifier, in full when nothing in it ends a line, and a file with routines
declares both names on one line each exactly when both are. -/
theorem accepted_names_iff (namespaceName className : String) :
    (∀ v, namespaceText v = .valid namespaceName ↔
      v = .string namespaceName ∧ PerhapsFed IsNamespaceText namespaceName.toList) ∧
    (∀ v, classText v = .valid className ↔
      v = .string className ∧ PerhapsFed IsIdentifierText className.toList) ∧
    ((∃ t root c, load t root = .ok c ∧ c.namespaceName = namespaceName ∧
        c.className = className) ↔
      PerhapsFed IsNamespaceText namespaceName.toList ∧
        PerhapsFed IsIdentifierText className.toList) ∧
    ∀ t root c, load t root = .ok c → c.namespaceName = namespaceName → c.className = className →
      (IsNamespaceText namespaceName.toList ↔
        ∀ d ∈ namespaceName.toList, isLineTerminator d = false) ∧
      (IsIdentifierText className.toList ↔ ∀ d ∈ className.toList, isLineTerminator d = false) ∧
      ∀ routines, routines ≠ [] →
        (DeclaresOnLines (unitText c.unitOptions routines).toList namespaceName className ↔
          IsNamespaceText namespaceName.toList ∧ IsIdentifierText className.toList) := by
  refine ⟨fun _ => namespaceText_eq_valid_iff, fun _ => classText_eq_valid_iff, exists_load_iff,
    ?_⟩
  rintro t root c loaded rfl rfl
  obtain ⟨isSpace, isClass⟩ := exists_load_iff.1 ⟨t, root, c, loaded, rfl, rfl⟩
  refine ⟨iff_of_perhapsFed isSpace fun _ h _ => notMem_of_isNamespaceText h,
    iff_of_perhapsFed isClass fun _ h _ other _ => notMem_of_isIdentifierText h other, ?_⟩
  intro routines nonempty
  rw [declaresOnLines_iff c nonempty, isSpace.bare_iff feed_notMem_namespace,
    isClass.bare_iff feed_notMem_identifier]

/-- Names with underscores and digits, which a file sets. -/
theorem accepted_names_of_file :
    let bytes := Text.utf8 "namespace = \"Acme.Web_1.Ids\"\nclass_name = '_Hooks'\n"
    let t := FileTree.empty.put [fileName] (.file bytes)
    ∃ c, load t [] = .ok c ∧ IsNamespaceText "Acme.Web_1.Ids".toList ∧
      IsIdentifierText "_Hooks".toList ∧
      DeclaresOnLines (unitText c.unitOptions [["M"]]).toList "Acme.Web_1.Ids" "_Hooks" := by
  intro bytes t
  have loaded : load t [] =
      .ok { usual with namespaceName := "Acme.Web_1.Ids", className := "_Hooks" } := by
    decide +kernel
  obtain ⟨-, -, -, lines⟩ := accepted_names_iff "Acme.Web_1.Ids" "_Hooks"
  obtain ⟨-, -, declares⟩ := lines _ _ _ loaded rfl rfl
  have space : IsNamespaceText "Acme.Web_1.Ids".toList := all_splitAll_iff.1 (by decide)
  have className : IsIdentifierText "_Hooks".toList := isIdentifier_iff.1 (by decide)
  exact ⟨_, loaded, space, className, (declares [["M"]] (by decide)).2 ⟨space, className⟩⟩

/-- A file can set names that end with a line feed, and the lines that declare them are then broken
in two. -/
theorem loads_broken_names :
    let bytes := Text.utf8 "namespace = \"A\\n\"\nclass_name = \"\"\"C\n\"\"\"\n"
    let t := FileTree.empty.put [fileName] (.file bytes)
    ∃ c, load t [] = .ok c ∧ c.namespaceName = "A\n" ∧ c.className = "C\n" ∧
      ¬IsNamespaceText c.namespaceName.toList ∧ ¬IsIdentifierText c.className.toList ∧
      ¬DeclaresOnLines (unitText c.unitOptions [["M"]]).toList c.namespaceName c.className := by
  intro bytes t
  have loaded : load t [] =
      .ok { usual with namespaceName := "A\n", className := "C\n" } := by
    decide +kernel
  refine ⟨_, loaded, rfl, rfl, fun h => ?_, fun h => ?_, fun h => ?_⟩
  · exact feed_notMem_namespace _ h (by decide)
  · exact feed_notMem_identifier _ h (by decide)
  · exact ((declaresOnLines_iff _ (by decide)).1 h).1 (by decide)

end Config

end CallSiteIds
