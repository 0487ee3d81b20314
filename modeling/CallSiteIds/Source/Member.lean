import CallSiteIds.Source.Grammar
import CallSiteIds.Text.Split

/-!
# Declarations and tagged methods

Source text is read down to its declarations, and the methods that carry a call-site tag are
listed with their lines and with the arguments of their tags.  The text is well formed when
every lexeme belongs to a declaration or a statement; otherwise there is no list.

Only ordinary methods are listed: constructors, properties, fields, delegates and local
functions may carry attributes but intercept nothing.
-/

set_option autoImplicit false

namespace CallSiteIds.Source

/-- A method with call-site tags: its name, the line it begins on, and for each tag its
arguments in parentheses, empty if it has none. -/
structure TaggedMethod where
  name : String
  line : Nat
  tags : List String
deriving DecidableEq, Repr

namespace Declaration

open Grammar

/-- Methods that were found, and the lexemes after what was read. -/
abbrev Found := Option (List TaggedMethod × List Lexeme)

/-- What a reader leaves, with no method found. -/
def plain (rest : Option (List Lexeme)) : Found :=
  rest.map fun rest => ([], rest)

/-! ## Tags -/

/-- The name of the tag attribute without qualifiers and suffix. -/
def tagName : List Char := "InterceptsLocation".toList

/-- Lexemes as they were written, without what stands in front of the first. -/
def written : List Lexeme → List Char
  | [] => []
  | l :: rest => l.text ++ rest.flatMap fun l => l.lead ++ l.text

/-- The lexemes that a rest completes. -/
def consumed (ts rest : List Lexeme) : List Lexeme :=
  ts.take (ts.length - rest.length)

/-- A text without an ending that it may have. -/
def dropEnding (ending cs : List Char) : List Char :=
  if ending.isSuffixOf cs then cs.take (cs.length - ending.length) else cs

/-- The name of an attribute without qualifiers and suffix. -/
def simpleAttributeName (cs : List Char) : List Char :=
  dropEnding "Attribute".toList (Text.afterLast '.' (Text.afterLast ':' cs))

/-- The arguments of an attribute up to its closing parenthesis, as they were written. -/
def attributeArguments : Nat → List Lexeme → Option (List (List Char) × List Lexeme)
  | 0, _ => none
  | fuel + 1, ts =>
    match phrase .attributeArgument ts with
    | none => none
    | some rest =>
      let argument := written (consumed ts rest)
      match rest with
      | [] => none
      | l :: after =>
        if l.isSymbol ")" then some ([argument], after)
        else if l.isSymbol "," then
          (attributeArguments fuel after).map fun (arguments, rest) => (argument :: arguments, rest)
        else none

/-- The arguments of a tag with one space after each comma. -/
def tagOfArguments (arguments : List (List Char)) : String :=
  String.ofList ('(' :: [',', ' '].intercalate arguments ++ [')'])

/-- Reads the arguments of an attribute, if it has any, as a tag. -/
def attributeTail (ts : List Lexeme) : Option (String × List Lexeme) :=
  match ts with
  | [] => some ("", [])
  | l :: rest =>
    if l.isSymbol "(" then
      match rest with
      | [] => none
      | r :: after =>
        if r.isSymbol ")" then some (tagOfArguments [], after)
        else (attributeArguments rest.length rest).map fun (arguments, rest) =>
          (tagOfArguments arguments, rest)
    else some ("", ts)

/-- Reads attributes up to their closing bracket and keeps the call-site tags. -/
def attributeItems : Nat → List Lexeme → Option (List String × List Lexeme)
  | 0, _ => none
  | fuel + 1, ts =>
    match (anyWord >=> phrase .typePath) ts with
    | none => none
    | some afterName =>
      let isTag := simpleAttributeName (written (consumed ts afterName)) == tagName
      match attributeTail afterName with
      | none => none
      | some (tag, rest) =>
        let tags := if isTag then [tag] else []
        match rest with
        | [] => none
        | l :: after =>
          if l.isSymbol "]" then some (tags, after)
          else if l.isSymbol "," then
            if ahead (Lexeme.isSymbol "]") after then some (tags, after.drop 1)
            else (attributeItems fuel after).map fun (more, rest) => (tags ++ more, rest)
          else none

/-- Reads all attribute lists ahead and keeps the call-site tags. -/
def attributeLists : Nat → List Lexeme → Option (List String × List Lexeme)
  | 0, _ => none
  | fuel + 1, ts =>
    match ts with
    | [] => some ([], [])
    | l :: rest =>
      if l.isSymbol "[" then
        match attributeItems (rest.length + 1) ((nameColon rest).getD rest) with
        | none => none
        | some (tags, rest) =>
          (attributeLists fuel rest).map fun (more, rest) => (tags ++ more, rest)
      else some ([], ts)

/-! ## Members -/

/-- The words that may stand before a declaration. -/
def modifierWords : List String :=
  [ "public", "private", "protected", "internal", "static", "abstract", "virtual", "override",
    "sealed", "readonly", "extern", "unsafe", "volatile", "new" ]

/-- The words that stand before a declaration only when a word follows. -/
def contextualModifiers : List String :=
  ["partial", "async", "file", "required"]

/-- Skips the modifiers of a declaration. -/
def dropModifiers : List Lexeme → List Lexeme
  | [] => []
  | l :: rest =>
    if l.isWord "extern" && ahead (Lexeme.isWord "alias") rest then l :: rest
    else if l.isAnyOf modifierWords then dropModifiers rest
    else if l.isAnyOf contextualModifiers && ahead (fun t => t.kind == .word) rest then
      dropModifiers rest
    else if l.isWord "ref" && ahead (Lexeme.isAnyOf ["struct", "partial"]) rest then
      dropModifiers rest
    else l :: rest

def qualifiedName : Reader :=
  anyWord >=> phrase .typePath

/-- Reads the name of a member, which may name an interface first: the last word, and the
lexemes after it. -/
def memberName : Nat → List Lexeme → Option (Lexeme × List Lexeme)
  | 0, _ => none
  | fuel + 1, ts =>
    match ts with
    | [] => none
    | l :: rest =>
      if l.kind != .word then none
      else
        let afterArguments := (phrase .typeArguments rest).getD rest
        match symbol "." afterArguments with
        | some after => memberName fuel after
        | none => some (l, rest)

/-- Reads the variables of a field. -/
def fieldTail : Reader :=
  phrase (.commaList .declarator) >=> symbol ";"

/-- Reads accessors in braces, and the first value if there is one. -/
def accessors : Reader :=
  symbol "\x7b" >=> phrase (.many .accessor) >=> symbol "\x7d" >=>
    maybe (symbol "=" >=> phrase .expression >=> symbol ";")

def bodyTail : Reader := memberBody phrase

/-- Reads an expression as a body. -/
def expressionTail : Reader :=
  symbol "=>" >=> phrase .expression >=> symbol ";"

/-- Reads the symbol of an operator, or the word of one. -/
def operatorSymbol : Reader := fun ts =>
  match ts with
  | a :: b :: rest =>
    if a.isSymbol ">" && b.isSymbol ">" then some (dropShift rest)
    else if a.kind == .symbol || a.isAnyOf ["true", "false"] then some (b :: rest)
    else none
  | _ => none

/-- Reads a conversion: its operator, its type, its parameters and its body. -/
def conversionTail : Reader :=
  word "operator" >=> phrase .type >=> phrase .parameters >=> bodyTail

def constructorTail : Reader :=
  anyWord >=> phrase .parameters >=>
    maybe (symbol ":" >=> one (Lexeme.isAnyOf ["base", "this"]) >=> phrase .arguments) >=> bodyTail

/-- Reads a member that begins with its type: a method, an operator, an indexer, a property or
a field. -/
def typedMember (line : Nat) (tags : List String) (ts : List Lexeme) : Found :=
  match phrase .type ts with
  | none => none
  | some ts =>
    if ahead (Lexeme.isWord "operator") ts then
      plain ((operatorSymbol >=> phrase .parameters >=> bodyTail) (ts.drop 1))
    else
      match memberName ts.length ts with
      | none => none
      | some (l, rest) =>
        if ahead (Lexeme.isSymbolOf ["(", "<"]) rest then
          (functionTail phrase rest).map fun rest =>
            (if tags.isEmpty then [] else [⟨String.ofList l.text, line, tags⟩], rest)
        else if l.isWord "this" then
          plain (((symbol "[" >=> phrase (.commaList .parameter) >=> symbol "]") rest).bind
            (either accessors expressionTail))
        else if ahead (Lexeme.isSymbol "\x7b") rest then plain (accessors rest)
        else if ahead (Lexeme.isSymbol "=>") rest then plain (expressionTail rest)
        else plain (fieldTail ts)

/-- Reads an enumeration from its name on. -/
def enumTail : Reader :=
  anyWord >=> maybe (symbol ":" >=> phrase .type) >=>
    bracketed phrase "\x7b" "\x7d" (.trailingList .enumMember) >=> maybe (symbol ";")

/-- Reads a delegate from its type on. -/
def delegateTail : Reader :=
  phrase .type >=> anyWord >=> typeParameters phrase >=> phrase .parameters >=>
    phrase (.many .constraints) >=> symbol ";"

/-- Reads the head of a type from its name on. -/
def typeHead : Reader :=
  anyWord >=> typeParameters phrase >=> maybe (phrase .parameters) >=>
    maybe (symbol ":" >=> phrase (.commaList .baseType)) >=> phrase (.many .constraints)

/-- Reads a directive that imports names, from the word after it on. -/
def importTail : Reader :=
  maybe (one (Lexeme.isAnyOf ["static", "unsafe"])) >=> maybe (anyWord >=> symbol "=") >=>
    phrase .type >=> symbol ";"

/-- Reads members in braces with the given reader. -/
def membersInBraces (members : List Lexeme → Found) (ts : List Lexeme) : Found :=
  match symbol "\x7b" ts with
  | none => none
  | some ts =>
    match members ts with
    | none => none
    | some (found, rest) =>
      ((symbol "\x7d" >=> maybe (symbol ";")) rest).map fun rest => (found, rest)

/-- Reads a type from its name on. -/
def typeTail (members : List Lexeme → Found) (ts : List Lexeme) : Found :=
  match typeHead ts with
  | none => none
  | some ts =>
    if ahead (Lexeme.isSymbol ";") ts then some ([], ts.drop 1) else membersInBraces members ts

/-- Reads a namespace from its name on. -/
def namespaceTail (members : List Lexeme → Found) (ts : List Lexeme) : Found :=
  match qualifiedName ts with
  | none => none
  | some ts =>
    if ahead (Lexeme.isSymbol ";") ts then some ([], ts.drop 1) else membersInBraces members ts

/-- The words that begin the declaration of a type with members. -/
def typeWords : List String :=
  ["class", "struct", "interface"]

/-- Reads a declaration that is no member of a type only: a namespace, an import or a type. -/
def outerDeclaration (members : List Lexeme → Found) (ts : List Lexeme) : Found :=
  match ts with
  | [] => none
  | l :: rest =>
    if l.isWord "namespace" then namespaceTail members rest
    else if l.isWord "using" then plain (importTail rest)
    else if l.isWord "global" && ahead (Lexeme.isWord "using") rest then
      plain (importTail (rest.drop 1))
    else if l.isWord "extern" && ahead (Lexeme.isWord "alias") rest then
      plain ((anyWord >=> anyWord >=> symbol ";") rest)
    else if l.isAnyOf typeWords then typeTail members rest
    else if l.isWord "record" && ahead (fun t => t.kind == .word) rest then
      typeTail members (if ahead (Lexeme.isAnyOf ["class", "struct"]) rest then rest.drop 1 else rest)
    else if l.isWord "enum" then plain (enumTail rest)
    else if l.isWord "delegate" && !ahead (Lexeme.isSymbol "*") rest then plain (delegateTail rest)
    else none

/-- Reads a member after its attributes and modifiers. -/
def member (members : List Lexeme → Found) (line : Nat) (tags : List String)
    (ts : List Lexeme) : Found :=
  match ts with
  | [] => none
  | l :: rest =>
    if l.isAnyOf (["namespace", "using", "enum", "delegate"] ++ typeWords) then
      outerDeclaration members ts
    else if l.isWord "event" then
      plain ((phrase .type rest).bind (either fieldTail (qualifiedName >=> accessors)))
    else if l.isWord "const" then plain ((phrase .type >=> fieldTail) rest)
    else if l.isAnyOf ["implicit", "explicit"] then plain (conversionTail rest)
    else if l.isSymbol "~" then plain ((anyWord >=> phrase .parameters >=> bodyTail) rest)
    else if l.isName && ahead (Lexeme.isSymbol "(") rest then plain (constructorTail ts)
    else
      match outerDeclaration members ts with
      | some found => some found
      | none => typedMember line tags ts

/-- Reads members up to a closing brace or the end.  `fuel` bounds their number and depth. -/
def members : Nat → List Lexeme → Found
  | 0, _ => none
  | fuel + 1, ts =>
    match ts with
    | [] => some ([], [])
    | l :: _ =>
      if l.isSymbol "\x7d" then some ([], ts)
      else
        match attributeLists (ts.length + 1) ts with
        | none => none
        | some (tags, rest) =>
          match member (members fuel) l.line tags (dropModifiers rest) with
          | none => none
          | some (found, rest) =>
            (members fuel rest).map fun (more, rest) => (found ++ more, rest)

/-- Reads a declaration at the outermost level with its attributes and modifiers. -/
def unitDeclaration (fuel : Nat) (ts : List Lexeme) : Found :=
  match attributeLists (ts.length + 1) ts with
  | none => none
  | some (_, rest) => outerDeclaration (members fuel) (dropModifiers rest)

/-- The targets of attributes that belong to no declaration. -/
def isUnitAttribute : List Lexeme → Bool
  | a :: b :: c :: _ => a.isSymbol "[" && b.isAnyOf ["assembly", "module"] && c.isSymbol ":"
  | _ => false

/-- Reads declarations and statements up to the end. -/
def unitItems : Nat → List Lexeme → Option (List TaggedMethod)
  | 0, _ => none
  | fuel + 1, ts =>
    if ts.isEmpty then some []
    else
      let item :=
        if isUnitAttribute ts then plain (phrase .attributes ts)
        else (unitDeclaration fuel ts).orElse fun _ => plain (phrase .statement ts)
      match item with
      | none => none
      | some (found, rest) => (unitItems fuel rest).map (found ++ ·)

end Declaration

/-- The tagged methods of a source text in order; none when the text is not well formed. -/
def taggedMethods? (cs : List Char) : Option (List TaggedMethod) :=
  (Lexeme.ofSource? cs).bind fun ts => Declaration.unitItems (ts.length + 1) ts

end CallSiteIds.Source
