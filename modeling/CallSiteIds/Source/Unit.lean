import CallSiteIds.Source.Routine

/-!
# Generated source files

A generated file declares its routines in one static class that no other file can see,
preceded, unless that is switched off, by a declaration of the tag attribute.  A file without
routines is a comment.
-/

set_option autoImplicit false

namespace CallSiteIds.Source

/-- The first line of every generated file. -/
def header : String := "// <auto-generated/>"

/-- The declaration of the tag attribute. -/
def attributeDeclaration : List String :=
  [ "namespace System.Runtime.CompilerServices",
    "\x7b",
    "    [global::System.Diagnostics.Conditional(\"DEBUG\")]",
    "    [global::System.AttributeUsage(global::System.AttributeTargets.Method, AllowMultiple = true)]",
    "    file sealed class InterceptsLocationAttribute : global::System.Attribute",
    "    \x7b",
    "        public InterceptsLocationAttribute(int version, string data)",
    "        \x7b",
    "            _ = version;",
    "            _ = data;",
    "        \x7d",
    "",
    "        public InterceptsLocationAttribute(string filePath, int line, int character)",
    "        \x7b",
    "            _ = filePath;",
    "            _ = line;",
    "            _ = character;",
    "        \x7d",
    "    \x7d",
    "\x7d" ]

/-- How a file is laid out. -/
structure UnitOptions where
  namespaceName : String
  className : String
  declaresAttribute : Bool
deriving DecidableEq, Repr

/-- The usual layout. -/
def UnitOptions.usual : UnitOptions :=
  ⟨"Praefixum", "PraefixumInterceptor", true⟩

/-- A line inside the class. -/
def memberLine (line : String) : String :=
  if line.isEmpty then "" else indentTwice line

/-- Routines with an empty line between them. -/
def memberLines : List (List String) → List String
  | [] => []
  | [routine] => routine.map memberLine
  | routine :: rest => routine.map memberLine ++ "" :: memberLines rest

/-- The lines of a file with routines. -/
def unitLines (options : UnitOptions) (routines : List (List String)) : List String :=
  [header, "#nullable enable", ""] ++
    (if options.declaresAttribute then attributeDeclaration ++ [""] else []) ++
    [ "namespace " ++ options.namespaceName, "\x7b",
      indent ++ "file static class " ++ options.className, indent ++ "\x7b" ] ++
    memberLines routines ++
    [indent ++ "\x7d", "\x7d"]

/-- The text of a file. -/
def unitText (options : UnitOptions) (routines : List (List String)) : String :=
  if routines.isEmpty then header ++ "\n"
  else "\n".intercalate (unitLines options routines) ++ "\n"

end CallSiteIds.Source
