/-!
# Identifiers of the generated source

Generated names are plain identifiers: ASCII letters, digits and underscores, not starting
with a digit.  `toIdentifier` reduces any name to one, leaves an identifier as it is, and is
idempotent.  A reserved word can still name a parameter when an at sign is put in front.
-/

set_option autoImplicit false

namespace CallSiteIds.Source

/-- A character of a plain identifier. -/
def isNameChar (c : Char) : Bool :=
  c.isAlphanum || c == '_'

/-- Tells whether a text is a plain identifier. -/
def isIdentifier : List Char → Bool
  | [] => false
  | c :: rest => (c.isAlpha || c == '_') && rest.all isNameChar

/-- A name with every other character replaced by an underscore. -/
def replaceOthers (name : List Char) : List Char :=
  name.map fun c => if isNameChar c then c else '_'

/-- Puts an underscore in front of a name that is empty or starts with a digit. -/
def leadName : List Char → List Char
  | [] => ['_']
  | c :: rest => if c.isDigit then '_' :: c :: rest else c :: rest

/-- The plain identifier for a name. -/
def toIdentifier (name : List Char) : List Char :=
  leadName (replaceOthers name)

/-- The reserved words of the generated language. -/
def reservedWords : List String :=
  [ "abstract", "as", "base", "bool", "break", "byte", "case", "catch",
    "char", "checked", "class", "const", "continue", "decimal", "default",
    "delegate", "do", "double", "else", "enum", "event", "explicit",
    "extern", "false", "finally", "fixed", "float", "for", "foreach",
    "goto", "if", "implicit", "in", "int", "interface", "internal", "is",
    "lock", "long", "namespace", "new", "null", "object", "operator",
    "out", "override", "params", "private", "protected", "public",
    "readonly", "ref", "return", "sbyte", "sealed", "short", "sizeof",
    "stackalloc", "static", "string", "struct", "switch", "this", "throw",
    "true", "try", "typeof", "uint", "ulong", "unchecked", "unsafe",
    "ushort", "using", "virtual", "void", "volatile", "while" ]

/-- A parameter name as it is written: a reserved word takes an at sign. -/
def escapeName (name : String) : String :=
  if name ∈ reservedWords then "@" ++ name else name

/-- Every character of a plain identifier is a name character. -/
theorem all_of_isIdentifier {cs : List Char} (h : isIdentifier cs = true) :
    cs.all isNameChar = true := by
  cases cs with
  | nil => cases h
  | cons c rest =>
    simp only [isIdentifier, Bool.and_eq_true, Bool.or_eq_true] at h
    simp only [List.all_cons, Bool.and_eq_true]
    refine ⟨?_, h.2⟩
    rcases h.1 with hc | hc
    · simp [isNameChar, Char.isAlphanum, hc]
    · simp [isNameChar, hc]

/-- A text of name characters only is not changed by replacing the others. -/
theorem replaceOthers_eq_self {cs : List Char} (h : cs.all isNameChar = true) :
    replaceOthers cs = cs := by
  induction cs with
  | nil => rfl
  | cons c rest ih =>
    simp only [List.all_cons, Bool.and_eq_true] at h
    have := ih h.2
    simp only [replaceOthers] at this ⊢
    simp [h.1, this]

end CallSiteIds.Source
