import CallSiteIds.Record
import CallSiteIds.Source.Identifier
import CallSiteIds.Source.TextLiteral

/-!
# Interceptor routines

A routine stands in for one call.  Its body has two states: when every marked argument is
present the call is forwarded as it is, and otherwise it is forwarded with the literal in the
place of each marked argument that is absent.  The body is data here, so that its meaning and
its text can be compared.
-/

set_option autoImplicit false

namespace CallSiteIds.Source

/-! ## Parts of a routine -/

/-- An argument of a forwarding call: a parameter, or a parameter with a literal to use when
it is null. -/
inductive Argument where
  | passed (name : String)
  | orLiteral (name literal : String)
deriving DecidableEq, Repr

/-- A call of the intercepted method. -/
structure Call where
  callee : String
  arguments : List Argument
deriving DecidableEq, Repr

/-- A statement of a body. -/
inductive Statement where
  /-- Makes a call for its effect. -/
  | perform (call : Call)
  /-- Makes a call and returns its result. -/
  | answer (call : Call)
  /-- Returns without a result. -/
  | leave
deriving DecidableEq, Repr

/-- A body: statements for the case that all guarded parameters are present, and the
statements that follow. -/
structure Body where
  guard : List String
  guarded : List Statement
  after : List Statement
deriving DecidableEq, Repr

/-- A forwarded parameter, with its literal if it is marked. -/
structure Forwarded where
  name : String
  literal : Option String
deriving DecidableEq, Repr

/-- A routine before it is written. -/
structure Routine where
  name : String
  tag : String
  returnType : String
  callee : String
  parameters : List String
  arguments : List Forwarded
deriving DecidableEq, Repr

/-- The parameter as it was passed. -/
def Forwarded.plain (f : Forwarded) : Argument :=
  .passed f.name

/-- The parameter with its literal, if it has one. -/
def Forwarded.synthesized (f : Forwarded) : Argument :=
  match f.literal with
  | none => .passed f.name
  | some literal => .orLiteral f.name literal

namespace Routine

/-- Tells whether a routine returns nothing. -/
def isVoid (r : Routine) : Bool :=
  r.returnType == "void"

/-- The statement that makes a call in a routine. -/
def forward (r : Routine) (arguments : List Argument) : Statement :=
  if r.isVoid then .perform ⟨r.callee, arguments⟩ else .answer ⟨r.callee, arguments⟩

def body (r : Routine) : Body where
  guard := (r.arguments.filter (·.literal.isSome)).map (·.name)
  guarded := r.forward (r.arguments.map Forwarded.plain) :: if r.isVoid then [.leave] else []
  after := [r.forward (r.arguments.map Forwarded.synthesized)]

end Routine

/-! ## Text -/

/-- One level of indentation. -/
def indent : String := "    "

def indentTwice (line : String) : String :=
  indent ++ indent ++ line

/-- An argument as it is written. -/
def Argument.text : Argument → String
  | passed name => escapeName name
  | orLiteral name literal =>
    escapeName name ++ " ?? " ++ String.ofList (regularLiteral literal.toList)

/-- A call as it is written. -/
def Call.text (c : Call) : String :=
  c.callee ++ "(" ++ ", ".intercalate (c.arguments.map Argument.text) ++ ");"

/-- A statement as it is written. -/
def Statement.text : Statement → String
  | perform call => call.text
  | answer call => "return " ++ call.text
  | leave => "return;"

/-- The condition that all guarded parameters are present. -/
def guardText (names : List String) : String :=
  " && ".intercalate (names.map fun name => escapeName name ++ " != null")

def Body.lines (b : Body) : List String :=
  [ "\x7b", indent ++ "if (" ++ guardText b.guard ++ ")", indent ++ "\x7b" ] ++
    b.guarded.map (fun s => indentTwice s.text) ++
    [ indent ++ "\x7d", "" ] ++
    b.after.map (fun s => indent ++ s.text) ++
    [ "\x7d" ]

/-- The first line of a routine after its tag. -/
def Routine.signature (r : Routine) : String :=
  "public static " ++ r.returnType ++ " " ++ r.name ++ "(" ++ ", ".intercalate r.parameters ++ ")"

def Routine.lines (r : Routine) : List String :=
  r.tag :: r.signature :: r.body.lines

/-! ## Parts of a signature -/

/-- A parameter with its type and default. -/
def parameterText (p : ParameterInfo) : String :=
  let declared := p.type ++ " " ++ escapeName p.name
  if p.hasDefault then declared ++ " = " ++ p.defaultLiteral.getD "null" else declared

/-- The name of the receiver of an instance method. -/
def receiverName : String := "@this"

/-- A type name from the root namespace. -/
def globalType (targetType : String) : String :=
  if "global::".toList.isPrefixOf targetType.toList then targetType
  else "global::" ++ targetType

/-- The receiver of an instance method as a parameter. -/
def receiverText (targetType : String) : String :=
  "this " ++ globalType targetType ++ " " ++ receiverName

def calleeText (targetType methodName : String) (isStatic : Bool) : String :=
  if isStatic then globalType targetType ++ "." ++ methodName
  else receiverName ++ "." ++ methodName

/-! ## Tags -/

/-- The attribute that ties a routine to its call site. -/
def tagAttribute : String := "global::System.Runtime.CompilerServices.InterceptsLocation"

/-- The arguments of a tag: the token of the host if there is one, and the place otherwise. -/
def tagArguments (path : String) (line column : Int) : Option String → String
  | some data => "(1, " ++ String.ofList (regularLiteral data.toList) ++ ")"
  | none =>
    "(" ++ String.ofList (verbatimLiteral path.toList) ++ ", " ++ Decimal.integerString line ++
      ", " ++ Decimal.integerString column ++ ")"

def tagText (l : SourceLocation) (data : Option String) : String :=
  "[" ++ tagAttribute ++ tagArguments l.path l.line l.column data ++ "]"

end CallSiteIds.Source
