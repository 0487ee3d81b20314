import CallSiteIds.Source.Identifier
import CallSiteIds.Source.Lexeme

/-!
# Types, expressions and statements

The part of the language below declarations, as a recogniser.  A reader takes the lexemes that
lie ahead and returns those after a phrase, or none if no such phrase lies ahead.  The phrases
call each other, so the rules are written over a reader `self` for all phrases, and `phrase`
ties the knot with a bound on the depth that no text of the given length can exceed.

Operators need no precedence here: whatever stands between operands, a text is either an
expression or not.
-/

set_option autoImplicit false

namespace CallSiteIds.Source

/-- Takes the lexemes ahead and returns those after a phrase. -/
abbrev Reader := List Lexeme → Option (List Lexeme)

namespace Lexeme

/-- Tells whether a lexeme is the given symbol. -/
def isSymbol (s : String) (l : Lexeme) : Bool :=
  l.kind == .symbol && l.text == s.toList

/-- Tells whether a lexeme is the given word. -/
def isWord (w : String) (l : Lexeme) : Bool :=
  l.kind == .word && l.text == w.toList

/-- Tells whether a lexeme is one of the given words. -/
def isAnyOf (ws : List String) (l : Lexeme) : Bool :=
  l.kind == .word && ws.any fun w => l.text == w.toList

/-- Tells whether a lexeme is one of the given symbols. -/
def isSymbolOf (ss : List String) (l : Lexeme) : Bool :=
  l.kind == .symbol && ss.any fun s => l.text == s.toList

/-- Tells whether a lexeme is a reserved word. -/
def isReserved (l : Lexeme) : Bool :=
  l.isAnyOf reservedWords

/-- Tells whether a lexeme is a word that is not reserved. -/
def isName (l : Lexeme) : Bool :=
  l.kind == .word && !l.isReserved

end Lexeme

namespace Grammar

/-! ## Small readers -/

/-- Reads one lexeme that passes a test. -/
def one (test : Lexeme → Bool) : Reader
  | [] => none
  | l :: rest => if test l then some rest else none

/-- Reads the given symbol. -/
def symbol (s : String) : Reader := one (Lexeme.isSymbol s)

/-- Reads the given word. -/
def word (w : String) : Reader := one (Lexeme.isWord w)

/-- Reads any word; where only a name can stand, a reserved word is one. -/
def anyWord : Reader := one fun l => l.kind == .word

/-- Reads a word that is not reserved. -/
def name : Reader := one Lexeme.isName

/-- Reads a phrase if it lies ahead. -/
def maybe (p : Reader) : Reader := fun ts => some ((p ts).getD ts)

/-- Reads the first of two phrases that lies ahead. -/
def either (p q : Reader) : Reader := fun ts => (p ts).orElse fun _ => q ts

/-- Tells whether the next lexeme passes a test. -/
def ahead (test : Lexeme → Bool) : List Lexeme → Bool
  | [] => false
  | l :: _ => test l

/-- Goes on only when the next lexeme passes a test. -/
def guarded (test : Lexeme → Bool) : Reader := fun ts => if ahead test ts then some ts else none

/-- Skips lexemes up to the bracket that closes the given number of open ones. -/
def closing (opening shutting : String) : Nat → Reader
  | _, [] => none
  | depth, l :: rest =>
    if l.isSymbol opening then closing opening shutting (depth + 1) rest
    else if l.isSymbol shutting then
      match depth with
      | 0 => none
      | 1 => some rest
      | depth + 1 => closing opening shutting depth rest
    else closing opening shutting depth rest

/-! ## Phrases -/

/-- The phrases of the language below declarations. -/
inductive Phrase where
  | type
  /-- A type that does not end with a question mark. -/
  | plainType
  /-- A type without marks and ranks after it. -/
  | typeCore
  /-- What follows a name in a type: arguments and further names. -/
  | typePath
  | typeArguments
  | typeTail
  | rankTail
  | tupleElement
  | expression
  /-- What follows an operand: operators and further operands. -/
  | operators
  | operand
  /-- What follows a primary expression: members, calls, indices. -/
  | postfixes
  | argument
  | arguments
  | tupleItem
  | parameter
  | parameters
  | attributes
  | attributeItem
  | attributeArgument
  | lambdaBody
  | initializer
  | initializerItem
  | collectionItem
  | pattern
  | simplePattern
  | patternTail
  | subpattern
  | switchArm
  | query
  | queryClause
  | ordering
  | block
  | statement
  | declarator
  | switchSection
  | switchLabel
  | catchClause
  | typeParameter
  | constraint
  | constraints
  | accessor
  | baseType
  | enumMember
  /-- At least one item, with commas between. -/
  | commaList (item : Phrase)
  /-- At least one item, with commas between and perhaps one at the end. -/
  | trailingList (item : Phrase)
  /-- Any number of items. -/
  | many (item : Phrase)
deriving DecidableEq, Repr

/-- A reader for every phrase. -/
abbrev Readers := Phrase → Reader

/-! ## Lists -/

/-- The rule for items with commas between. -/
def commaListRule (self : Readers) (item : Phrase) : Reader := fun ts =>
  match self item ts with
  | none => none
  | some rest =>
    match rest with
    | [] => some []
    | l :: after => if l.isSymbol "," then self (.commaList item) after else some rest

/-- The rule for items with commas between and perhaps one at the end. -/
def trailingListRule (self : Readers) (item : Phrase) : Reader := fun ts =>
  match self item ts with
  | none => none
  | some rest =>
    match rest with
    | [] => some []
    | l :: after =>
      if l.isSymbol "," then some ((self (.trailingList item) after).getD after) else some rest

/-- The rule for any number of items. -/
def manyRule (self : Readers) (item : Phrase) : Reader := fun ts =>
  match self item ts with
  | none => some ts
  | some rest => self (.many item) rest

/-- A list in brackets that may be empty. -/
def bracketed (self : Readers) (opening shutting : String) (items : Phrase) : Reader :=
  symbol opening >=> maybe (self items) >=> symbol shutting

/-! ## Types -/

/-- The words for the types that the language predefines. -/
def predefinedTypes : List String :=
  [ "bool", "byte", "sbyte", "short", "ushort", "int", "uint", "long", "ulong", "char", "float",
    "double", "decimal", "string", "object", "void" ]

def typeRule (self : Readers) : Reader := fun ts =>
  match ts with
  | [] => none
  | l :: rest =>
    if l.isWord "ref" then (maybe (word "readonly") >=> self .type) rest
    else (self .typeCore >=> self .typeTail) ts

/-- The rule for a type without marks and ranks. -/
def typeCoreRule (self : Readers) : Reader := fun ts =>
  match ts with
  | [] => none
  | l :: rest =>
    if l.isSymbol "(" then (self (.commaList .tupleElement) >=> symbol ")") rest
    else if l.isAnyOf predefinedTypes then some rest
    else if l.isName then self .typePath rest
    else none

/-- The rule for what follows a name in a type. -/
def typePathRule (self : Readers) : Reader := fun ts =>
  let ts := (self .typeArguments ts).getD ts
  match ts with
  | dot :: w :: rest =>
    if dot.isSymbolOf [".", "::"] && w.kind == .word then self .typePath rest else some ts
  | _ => some ts

/-- The rule for type arguments; an unbound type has only commas. -/
def typeArgumentsRule (self : Readers) : Reader :=
  symbol "<" >=> fun ts =>
    let unbound := ts.dropWhile (Lexeme.isSymbol ",")
    ((symbol ">" unbound).orElse fun _ => (self (.commaList .type) >=> symbol ">") ts)

/-- The rule for array ranks. -/
def rankTailRule (self : Readers) : Reader := fun ts =>
  match ts with
  | l :: rest =>
    if l.isSymbol "[" then
      match symbol "]" (rest.dropWhile (Lexeme.isSymbol ",")) with
      | none => some ts
      | some rest => self .rankTail rest
    else some ts
  | [] => some []

/-- The rule for marks and ranks after a type. -/
def typeTailRule (self : Readers) : Reader := fun ts =>
  match ts with
  | l :: rest =>
    if l.isSymbol "?" || l.isSymbol "*" then self .typeTail rest
    else if l.isSymbol "[" then
      match symbol "]" (rest.dropWhile (Lexeme.isSymbol ",")) with
      | none => some ts
      | some rest => self .typeTail rest
    else some ts
  | [] => some []

/-- The rule for an element of a tuple type. -/
def tupleElementRule (self : Readers) : Reader :=
  self .type >=> maybe name

/-! ## Expressions -/

/-- The symbols that join two operands. -/
def binarySymbols : List String :=
  [ "+", "-", "*", "/", "%", "&", "|", "^", "&&", "||", "==", "!=", "<", ">", "<=", ">=", "<<",
    "??", "=", "+=", "-=", "*=", "/=", "%=", "&=", "|=", "^=", "<<=", "??=" ]

/-- The symbols that may stand before an operand. -/
def unarySymbols : List String :=
  ["+", "-", "!", "~", "++", "--", "&", "*", "^"]

/-- The words that continue an expression and so begin no operand. -/
def joiningWords : List String :=
  [ "is", "as", "switch", "with", "and", "or", "when", "where", "select", "orderby", "let", "join",
    "on", "equals", "group", "by", "into", "ascending", "descending" ]

/-- Drops the further symbols of a shift to the right. -/
def dropShift : List Lexeme → List Lexeme
  | l :: rest => if l.isSymbol ">" || l.isSymbol ">=" then dropShift rest else l :: rest
  | [] => []

def expressionRule (self : Readers) : Reader :=
  self .operand >=> self .operators

/-- The rule for what follows a question mark after an operand: the two branches of a choice,
or an index that is skipped when the operand is null. -/
def choiceRule (self : Readers) : Reader :=
  either (self .expression >=> symbol ":" >=> self .expression)
    (bracketed self "[" "]" (.commaList .argument) >=> self .postfixes >=> self .operators)

/-- The rule for what follows an operand. -/
def operatorsRule (self : Readers) : Reader := fun ts =>
  match ts with
  | [] => some []
  | l :: rest =>
    if l.isSymbolOf binarySymbols then
      (self .operand >=> self .operators) (if l.isSymbol ">" then dropShift rest else rest)
    else if l.isSymbol ".." then
      ((self .operand >=> self .operators) rest).orElse fun _ => some rest
    else if l.isSymbol "?" then choiceRule self rest
    else if l.isWord "is" then (self .pattern >=> self .operators) rest
    else if l.isWord "as" then
      either (self .plainType >=> self .operators) (self .type >=> self .operators) rest
    else if l.isWord "switch" then
      (symbol "\x7b" >=> maybe (self (.trailingList .switchArm)) >=> symbol "\x7d" >=>
        self .operators) rest
    else if l.isWord "with" then (self .initializer >=> self .operators) rest
    else some ts

/-- Tells whether a lexeme can follow type arguments that belong to a call or a member. -/
def followsArguments (l : Lexeme) : Bool :=
  l.isSymbolOf ["(", ")", "]", "\x7d", ":", ";", ",", ".", "?", "==", "!=", "|", "^", "&&", "||",
    "&", "[", "::"]

/-- Reads type arguments if what follows them shows that they are not comparisons. -/
def callArguments (self : Readers) : Reader :=
  maybe (self .typeArguments >=> guarded followsArguments)

/-- The rule for what follows a primary expression. -/
def postfixesRule (self : Readers) : Reader := fun ts =>
  match ts with
  | [] => some []
  | l :: rest =>
    if l.isSymbolOf [".", "->", "::"] then
      (anyWord >=> callArguments self >=> self .postfixes) rest
    else if l.isSymbol "(" then (self .arguments >=> self .postfixes) ts
    else if l.isSymbol "[" then
      (self (.commaList .argument) >=> symbol "]" >=> self .postfixes) rest
    else if l.isSymbolOf ["++", "--", "!"] then self .postfixes rest
    else if l.isSymbol "?" && ahead (Lexeme.isSymbol ".") rest then self .postfixes rest
    else some ts

/-- Tells whether the lexemes begin with parameters in parentheses and an arrow. -/
def isLambdaAhead (ts : List Lexeme) : Bool :=
  match ts with
  | l :: rest =>
    l.isSymbol "(" &&
      match closing "(" ")" 1 rest with
      | some after => ahead (Lexeme.isSymbol "=>") after
      | none => false
  | [] => false

/-- The rule for a function: its parameters, an arrow and its body. -/
def lambdaRule (self : Readers) : Reader :=
  either
    (bracketed self "(" ")" (.commaList .parameter) >=> symbol "=>" >=> self .lambdaBody)
    (name >=> symbol "=>" >=> self .lambdaBody)

/-- The rule for the body of a function. -/
def lambdaBodyRule (self : Readers) : Reader := fun ts =>
  if ahead (Lexeme.isSymbol "\x7b") ts then self .block ts else self .expression ts

/-- Tells whether a lexeme can begin the operand of a cast. -/
def beginsCastOperand (l : Lexeme) : Bool :=
  match l.kind with
  | .word => !l.isAnyOf joiningWords
  | .number => true
  | .text => true
  | .symbol => l.isSymbolOf ["(", "!", "~"]
  | .directive => false

/-- The rule for an operand in parentheses: a cast, a tuple or a plain expression. -/
def parenthesesRule (self : Readers) : Reader := fun ts =>
  let cast := (self .type >=> symbol ")" >=> guarded beginsCastOperand >=> self .operand) ts
  cast.orElse fun _ =>
    let predefined := (one (Lexeme.isAnyOf predefinedTypes) >=> symbol ")" >=>
      guarded (Lexeme.isSymbolOf ["+", "-"]) >=> self .operand) ts
    predefined.orElse fun _ =>
      (self (.commaList .tupleItem) >=> symbol ")" >=> self .postfixes) ts

/-- Reads a word and the colon after it. -/
def nameColon : Reader := anyWord >=> symbol ":"

/-- The rule for an item of a tuple. -/
def tupleItemRule (self : Readers) : Reader := fun ts =>
  let plain := (maybe nameColon >=> self .expression >=>
    guarded (Lexeme.isSymbolOf [",", ")"])) ts
  plain.orElse fun _ => (self .type >=> name) ts

/-- The rule for the creation of an object or an array. -/
def creationRule (self : Readers) : Reader := fun ts =>
  match ts with
  | [] => none
  | l :: rest =>
    if l.isSymbol "(" then (self .arguments >=> maybe (self .initializer)) ts
    else if l.isSymbol "\x7b" then self .initializer ts
    else if l.isSymbol "[" then
      (symbol "]" >=> self .initializer) (rest.dropWhile (Lexeme.isSymbol ","))
    else
      (self .typeCore >=> maybe (symbol "?") >=> fun ts =>
        match ts with
        | [] => none
        | l :: rest =>
          if l.isSymbol "(" then (self .arguments >=> maybe (self .initializer)) ts
          else if l.isSymbol "\x7b" then self .initializer ts
          else if l.isSymbol "[" then
            let sized := (self (.commaList .expression) >=> symbol "]" >=> self .rankTail >=>
              maybe (self .initializer)) rest
            sized.orElse fun _ => (self .rankTail >=> self .initializer) ts
          else none) ts

/-- The rule for an operand that begins with a word. -/
def wordOperandRule (self : Readers) (l : Lexeme) (rest : List Lexeme) :
    Option (List Lexeme) :=
  if l.isAnyOf ["this", "base", "true", "false", "null"] then self .postfixes rest
  else if l.isWord "new" then (creationRule self >=> self .postfixes) rest
  else if l.isAnyOf ["typeof", "sizeof"] then
    (symbol "(" >=> self .type >=> symbol ")" >=> self .postfixes) rest
  else if l.isWord "default" then
    (maybe (symbol "(" >=> self .type >=> symbol ")") >=> self .postfixes) rest
  else if l.isAnyOf ["checked", "unchecked"] then
    (symbol "(" >=> self .expression >=> symbol ")" >=> self .postfixes) rest
  else if l.isAnyOf ["throw", "ref"] then self .expression rest
  else if l.isWord "stackalloc" then
    if ahead (Lexeme.isSymbol "[") rest then
      (symbol "[" >=> maybe (self .expression) >=> symbol "]" >=> self .initializer) rest
    else
      (self .typeCore >=> symbol "[" >=> maybe (self .expression) >=> symbol "]" >=>
        maybe (self .initializer)) rest
  else if l.isWord "delegate" then (maybe (self .parameters) >=> self .block) rest
  else if l.isWord "static" then (maybe (word "async") >=> lambdaRule self) rest
  else if l.isAnyOf predefinedTypes then self .postfixes rest
  else if l.isReserved then none
  else if ahead (Lexeme.isSymbol "=>") rest then
    (symbol "=>" >=> self .lambdaBody) rest
  else if l.isWord "async" && (isLambdaAhead rest || ahead Lexeme.isName rest) then
    lambdaRule self rest
  else if l.isWord "await" && ahead (fun t => t.kind == .word || t.kind == .text) rest then
    self .operand rest
  else
    let named := (callArguments self >=> self .postfixes) rest
    if l.isWord "from" && ahead (fun t => t.kind == .word) rest then
      (self .query rest).orElse fun _ => named
    else named

def operandRule (self : Readers) : Reader := fun ts =>
  match ts with
  | [] => none
  | l :: rest =>
    match l.kind with
    | .number => self .postfixes rest
    | .text => self .postfixes rest
    | .word => wordOperandRule self l rest
    | .directive => none
    | .symbol =>
      if l.isSymbol "(" then
        let function := if isLambdaAhead ts then lambdaRule self ts else none
        function.orElse fun _ => parenthesesRule self rest
      else if l.isSymbolOf unarySymbols then self .operand rest
      else if l.isSymbol ".." then some ((self .operand rest).getD rest)
      else if l.isSymbol "[" then
        (maybe (self (.trailingList .collectionItem)) >=> symbol "]" >=> self .postfixes) rest
      else none

/-- The rule for an item of a collection. -/
def collectionItemRule (self : Readers) : Reader :=
  maybe (symbol "..") >=> self .expression

/-- The rule for an argument of a call. -/
def argumentRule (self : Readers) : Reader :=
  maybe nameColon >=> fun ts =>
    if ahead (Lexeme.isAnyOf ["out", "ref", "in"]) ts then
      let rest := ts.drop 1
      ((self .type >=> name >=> guarded (Lexeme.isSymbolOf [",", ")", "]"])) rest).orElse
        fun _ => self .expression rest
    else self .expression ts

/-- The rule for arguments in parentheses. -/
def argumentsRule (self : Readers) : Reader :=
  bracketed self "(" ")" (.commaList .argument)

/-- The rule for an initializer in braces. -/
def initializerRule (self : Readers) : Reader :=
  bracketed self "\x7b" "\x7d" (.trailingList .initializerItem)

/-- The rule for an item of an initializer. -/
def initializerItemRule (self : Readers) : Reader := fun ts =>
  let value := fun ts => if ahead (Lexeme.isSymbol "\x7b") ts then self .initializer ts
    else self .expression ts
  let keyed := (symbol "[" >=> self (.commaList .argument) >=> symbol "]" >=> symbol "=" >=>
    value) ts
  keyed.orElse fun _ =>
    ((anyWord >=> symbol "=" >=> self .initializer) ts).orElse fun _ => value ts

/-! ## Patterns -/

def patternRule (self : Readers) : Reader :=
  self .simplePattern >=> self .patternTail

/-- The rule for what follows a pattern. -/
def patternTailRule (self : Readers) : Reader := fun ts =>
  if ahead (Lexeme.isAnyOf ["and", "or"]) ts then self .pattern (ts.drop 1) else some ts

/-- A name that a pattern may bind. -/
def designation : Reader :=
  one fun l => l.isName && !l.isAnyOf joiningWords

/-- The rule for the parts of a pattern that follow a type. -/
def patternPartsRule (self : Readers) : Reader :=
  maybe (bracketed self "(" ")" (.commaList .subpattern)) >=>
    maybe (bracketed self "\x7b" "\x7d" (.trailingList .subpattern)) >=>
    maybe designation

/-- The rule for a pattern without words between its parts. -/
def simplePatternRule (self : Readers) : Reader := fun ts =>
  match ts with
  | [] => none
  | l :: rest =>
    if l.isWord "not" then self .simplePattern rest
    else if l.isSymbolOf ["<", ">", "<=", ">="] then self .operand rest
    else if l.isSymbol "[" then
      (maybe (self (.trailingList .subpattern)) >=> symbol "]" >=> maybe designation) rest
    else if l.isSymbol ".." then maybe (self .simplePattern) rest
    else if l.isSymbolOf ["(", "\x7b"] then patternPartsRule self ts
    else
      ((self .plainType >=> patternPartsRule self) ts).orElse fun _ => self .operand ts

/-- The rule for a part of a pattern. -/
def subpatternRule (self : Readers) : Reader := fun ts =>
  let path := ts.dropWhile fun l => l.kind == .word || l.isSymbol "."
  (((symbol ":" >=> self .pattern) path).orElse fun _ => self .pattern ts)

/-- The rule for an arm of a choice by patterns. -/
def switchArmRule (self : Readers) : Reader :=
  self .pattern >=> maybe (word "when" >=> self .expression) >=> symbol "=>" >=>
    self .expression

/-! ## Queries -/

/-- Reads a range variable, perhaps with its type. -/
def rangeVariable (self : Readers) : Reader :=
  either (name >=> guarded (Lexeme.isWord "in")) (self .type >=> name)

/-- The rule for a query whose first word has been read. -/
def queryRule (self : Readers) : Reader :=
  rangeVariable self >=> word "in" >=> self .expression >=> self (.many .queryClause)

/-- The rule for a clause of a query. -/
def queryClauseRule (self : Readers) : Reader := fun ts =>
  match ts with
  | [] => none
  | l :: rest =>
    if l.isWord "from" then (rangeVariable self >=> word "in" >=> self .expression) rest
    else if l.isWord "let" then (name >=> symbol "=" >=> self .expression) rest
    else if l.isWord "where" || l.isWord "select" then self .expression rest
    else if l.isWord "join" then
      (rangeVariable self >=> word "in" >=> self .expression >=> word "on" >=>
        self .expression >=> word "equals" >=> self .expression) rest
    else if l.isWord "orderby" then self (.commaList .ordering) rest
    else if l.isWord "group" then (self .expression >=> word "by" >=> self .expression) rest
    else if l.isWord "into" then name rest
    else none

/-- The rule for a key of an order. -/
def orderingRule (self : Readers) : Reader :=
  self .expression >=> maybe (one (Lexeme.isAnyOf ["ascending", "descending"]))

/-! ## Parameters and attributes -/

/-- The words that may stand before a parameter. -/
def parameterWords : List String :=
  ["this", "ref", "out", "in", "params", "scoped", "readonly"]

/-- The rule for a parameter, whose type may be left out. -/
def parameterRule (self : Readers) : Reader :=
  self (.many .attributes) >=> fun ts =>
    let ts := ts.dropWhile (Lexeme.isAnyOf parameterWords)
    let typed := (self .type >=> anyWord) ts
    (typed.orElse fun _ => anyWord ts).bind (maybe (symbol "=" >=> self .expression))

/-- The rule for parameters in parentheses. -/
def parametersRule (self : Readers) : Reader :=
  bracketed self "(" ")" (.commaList .parameter)

/-- The rule for an argument of an attribute. -/
def attributeArgumentRule (self : Readers) : Reader :=
  maybe nameColon >=> self .expression

def attributeItemRule (self : Readers) : Reader :=
  anyWord >=> self .typePath >=> maybe (bracketed self "(" ")" (.commaList .attributeArgument))

/-- The rule for attributes in brackets. -/
def attributesRule (self : Readers) : Reader :=
  symbol "[" >=> maybe nameColon >=> self (.trailingList .attributeItem) >=> symbol "]"

def typeParameterRule (self : Readers) : Reader :=
  self (.many .attributes) >=> maybe (one (Lexeme.isAnyOf ["in", "out"])) >=> name

/-- The rule for one constraint of a type parameter. -/
def constraintRule (self : Readers) : Reader := fun ts =>
  match ts with
  | [] => none
  | l :: rest =>
    if l.isWord "class" then maybe (symbol "?") rest
    else if l.isAnyOf ["struct", "default"] then some rest
    else if l.isWord "new" then (symbol "(" >=> symbol ")") rest
    else self .type ts

/-- The rule for the constraints of one type parameter. -/
def constraintsRule (self : Readers) : Reader :=
  word "where" >=> name >=> symbol ":" >=> self (.commaList .constraint)

/-! ## Statements -/

def blockRule (self : Readers) : Reader :=
  symbol "\x7b" >=> self (.many .statement) >=> symbol "\x7d"

/-- The rule for a declared variable after its type. -/
def declaratorRule (self : Readers) : Reader :=
  anyWord >=> maybe (bracketed self "[" "]" (.commaList .expression)) >=>
    maybe (symbol "=" >=> fun ts =>
      if ahead (Lexeme.isSymbol "\x7b") ts then self .initializer ts else self .expression ts)

/-- Reads a condition in parentheses. -/
def condition (self : Readers) : Reader :=
  symbol "(" >=> self .expression >=> symbol ")"

/-- Reads the variables that a statement declares, without its end. -/
def variableList (self : Readers) : Reader :=
  self .type >=> self (.commaList .declarator)

/-- The body of a member: a block, an expression or nothing. -/
def memberBody (self : Readers) : Reader := fun ts =>
  if ahead (Lexeme.isSymbol "\x7b") ts then self .block ts
  else if ahead (Lexeme.isSymbol "=>") ts then
    (symbol "=>" >=> self .expression >=> symbol ";") ts
  else symbol ";" ts

/-- Reads type parameters if there are any. -/
def typeParameters (self : Readers) : Reader :=
  maybe (symbol "<" >=> self (.commaList .typeParameter) >=> symbol ">")

/-- Reads what follows the name of a function. -/
def functionTail (self : Readers) : Reader :=
  typeParameters self >=> self .parameters >=> self (.many .constraints) >=> memberBody self

/-- The words that may stand before a local function. -/
def localWords : List String :=
  ["static", "async", "unsafe", "extern"]

def localFunction (self : Readers) : Reader :=
  self (.many .attributes) >=> fun ts =>
    let ts := ts.dropWhile fun l => l.isAnyOf localWords
    (self .type >=> anyWord >=> guarded (Lexeme.isSymbolOf ["(", "<"]) >=> functionTail self) ts

/-- Reads a statement that is a declaration or an expression. -/
def plainStatement (self : Readers) : Reader := fun ts =>
  let declared := (self .type >=> guarded (fun l => l.isName && !l.isAnyOf ["switch", "with"]) >=>
    self (.commaList .declarator) >=> symbol ";") ts
  declared.orElse fun _ =>
    ((self .expression >=> symbol ";") ts).orElse fun _ => localFunction self ts

/-- Reads the head of a loop over a collection. -/
def eachHead (self : Readers) : Reader := fun ts =>
  ((self .type >=> anyWord >=> word "in" >=> self .expression) ts).orElse fun _ =>
    (self .expression >=> word "in" >=> self .expression) ts

/-- Reads the head of a counting loop. -/
def forHead (self : Readers) : Reader :=
  maybe (either (variableList self >=> guarded (Lexeme.isSymbol ";"))
      (self (.commaList .expression))) >=>
    symbol ";" >=> maybe (self .expression) >=> symbol ";" >=>
    maybe (self (.commaList .expression))

/-- The rule for a statement that begins with a word. -/
def wordStatementRule (self : Readers) (l : Lexeme) (rest ts : List Lexeme) :
    Option (List Lexeme) :=
  if l.isWord "if" then
    (condition self >=> self .statement >=> maybe (word "else" >=> self .statement)) rest
  else if l.isWord "while" then (condition self >=> self .statement) rest
  else if l.isWord "do" then
    (self .statement >=> word "while" >=> condition self >=> symbol ";") rest
  else if l.isWord "for" then
    (symbol "(" >=> forHead self >=> symbol ")" >=> self .statement) rest
  else if l.isWord "foreach" then
    (symbol "(" >=> eachHead self >=> symbol ")" >=> self .statement) rest
  else if l.isWord "await" && ahead (Lexeme.isAnyOf ["foreach", "using"]) rest then
    self .statement rest
  else if l.isWord "switch" then
    (condition self >=> symbol "\x7b" >=> self (.many .switchSection) >=> symbol "\x7d") rest
  else if l.isAnyOf ["return", "throw"] then (maybe (self .expression) >=> symbol ";") rest
  else if l.isAnyOf ["break", "continue"] then symbol ";" rest
  else if l.isWord "goto" then
    (either (word "case" >=> self .expression) anyWord >=> symbol ";") rest
  else if l.isWord "yield" && ahead (Lexeme.isAnyOf ["return", "break"]) rest then
    (anyWord >=> maybe (self .expression) >=> symbol ";") rest
  else if l.isWord "try" then
    (self .block >=> self (.many .catchClause) >=> maybe (word "finally" >=> self .block)) rest
  else if l.isAnyOf ["using", "fixed"] && ahead (Lexeme.isSymbol "(") rest then
    (symbol "(" >=> either (variableList self >=> symbol ")") (self .expression >=> symbol ")") >=>
      self .statement) rest
  else if l.isAnyOf ["using", "const"] then (variableList self >=> symbol ";") rest
  else if l.isWord "lock" then (condition self >=> self .statement) rest
  else if l.isAnyOf ["checked", "unchecked", "unsafe"] && ahead (Lexeme.isSymbol "\x7b") rest then
    self .block rest
  else if l.isName && ahead (Lexeme.isSymbol ":") rest then
    (symbol ":" >=> self .statement) rest
  else plainStatement self ts

def statementRule (self : Readers) : Reader := fun ts =>
  match ts with
  | [] => none
  | l :: rest =>
    if l.isSymbol "\x7b" then self .block ts
    else if l.isSymbol "\x7d" then none
    else if l.isSymbol ";" then some rest
    else if l.kind == .word then wordStatementRule self l rest ts
    else plainStatement self ts

/-- The rule for a label of a section. -/
def switchLabelRule (self : Readers) : Reader := fun ts =>
  if ahead (Lexeme.isWord "default") ts then symbol ":" (ts.drop 1)
  else
    (word "case" >=> self .pattern >=> maybe (word "when" >=> self .expression) >=>
      symbol ":") ts

/-- The rule for a section of a choice by cases. -/
def switchSectionRule (self : Readers) : Reader :=
  self .switchLabel >=> self (.many .switchLabel) >=> self (.many .statement)

/-- The rule for a handler. -/
def catchClauseRule (self : Readers) : Reader :=
  word "catch" >=> maybe (symbol "(" >=> self .type >=> maybe name >=> symbol ")") >=>
    maybe (word "when" >=> condition self) >=> self .block

/-! ## Parts of declarations -/

/-- The words for the accessors of a property or an event. -/
def accessorWords : List String :=
  ["get", "set", "init", "add", "remove"]

/-- The words that may stand before an accessor. -/
def accessWords : List String :=
  ["public", "private", "protected", "internal", "readonly"]

def accessorRule (self : Readers) : Reader :=
  self (.many .attributes) >=> fun ts =>
    (one (Lexeme.isAnyOf accessorWords) >=> memberBody self)
      (ts.dropWhile (Lexeme.isAnyOf accessWords))

/-- The rule for a type that another builds on. -/
def baseTypeRule (self : Readers) : Reader :=
  self .type >=> maybe (self .arguments)

/-- The rule for a member of an enumeration. -/
def enumMemberRule (self : Readers) : Reader :=
  self (.many .attributes) >=> anyWord >=> maybe (symbol "=" >=> self .expression)

/-! ## All phrases -/

/-- The rule of every phrase over a reader for all of them. -/
def rule (self : Readers) : Phrase → Reader
  | .type => typeRule self
  | .plainType => self .typeCore >=> self .rankTail
  | .typeCore => typeCoreRule self
  | .typePath => typePathRule self
  | .typeArguments => typeArgumentsRule self
  | .typeTail => typeTailRule self
  | .rankTail => rankTailRule self
  | .tupleElement => tupleElementRule self
  | .expression => expressionRule self
  | .operators => operatorsRule self
  | .operand => operandRule self
  | .postfixes => postfixesRule self
  | .argument => argumentRule self
  | .arguments => argumentsRule self
  | .tupleItem => tupleItemRule self
  | .parameter => parameterRule self
  | .parameters => parametersRule self
  | .attributes => attributesRule self
  | .attributeItem => attributeItemRule self
  | .attributeArgument => attributeArgumentRule self
  | .lambdaBody => lambdaBodyRule self
  | .initializer => initializerRule self
  | .initializerItem => initializerItemRule self
  | .collectionItem => collectionItemRule self
  | .pattern => patternRule self
  | .simplePattern => simplePatternRule self
  | .patternTail => patternTailRule self
  | .subpattern => subpatternRule self
  | .switchArm => switchArmRule self
  | .query => queryRule self
  | .queryClause => queryClauseRule self
  | .ordering => orderingRule self
  | .block => blockRule self
  | .statement => statementRule self
  | .declarator => declaratorRule self
  | .switchSection => switchSectionRule self
  | .switchLabel => switchLabelRule self
  | .catchClause => catchClauseRule self
  | .typeParameter => typeParameterRule self
  | .constraint => constraintRule self
  | .constraints => constraintsRule self
  | .accessor => accessorRule self
  | .baseType => baseTypeRule self
  | .enumMember => enumMemberRule self
  | .commaList item => commaListRule self item
  | .trailingList item => trailingListRule self item
  | .many item => manyRule self item

/-- Reads a phrase whose rules nest no deeper than the bound. -/
def readWithin : Nat → Readers
  | 0 => fun _ _ => none
  | depth + 1 => rule (readWithin depth)

/-- Reads a phrase.  Between two lexemes that are read, at most a dozen rules nest. -/
def phrase (p : Phrase) : Reader := fun ts =>
  readWithin (16 * (ts.length + 1)) p ts

end Grammar

end CallSiteIds.Source
