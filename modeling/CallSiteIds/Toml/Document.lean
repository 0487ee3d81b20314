import CallSiteIds.Text.Utf8
import CallSiteIds.Toml.Value

/-!
# TOML documents

A document is read statement by statement: a statement sets a field, opens a table, or adds a
table to an array of tables.  What a key may still be used for depends on what was done with
it before, and the state keeps that beside the fields: which tables were opened, and which
values are closed to any later key.
-/

set_option autoImplicit false

namespace CallSiteIds.Toml

open Json (Value)

/-- A document while it is read. -/
structure State where
  fields : Table
  /-- The table that fields are set in. -/
  header : Key
  /-- The tables that may not be opened again. -/
  opened : List Key
  /-- The containers given as values, which no key may extend. -/
  closed : List Key
  /-- The tables that dotted keys made since the last header; the next one closes them to
  being opened. -/
  pending : List Key

namespace State

/-- The state before the first statement. -/
def start : State := ⟨[], [], [], [], []⟩

/-- Tells whether a key leads into a value that is closed. -/
def isClosed (s : State) (key : Key) : Bool :=
  s.closed.any fun k => k.isPrefixOf key

/-- The tables on the way from the current one to the field of a dotted key. -/
def between (header key : Key) : List Key :=
  ((List.range key.length).drop 1).map fun n => header ++ key.take n

/-- Sets a field. -/
def assign (s : State) (key : Key) (value : Value) : Option State :=
  match key.getLast? with
  | none => none
  | some stem =>
    let way := between s.header key
    let parent := s.header ++ key.dropLast
    if way.any fun k => s.opened.contains k then none
    else if s.isClosed parent then none
    else do
      let fields ← within true (insertNew stem value) parent s.fields
      let closed := if isContainer value then (s.header ++ key) :: s.closed else s.closed
      return { s with fields, closed, pending := way ++ s.pending }

/-- Settles the tables that dotted keys made. -/
def settle (s : State) : State :=
  { s with opened := s.pending ++ s.opened, pending := [] }

def openTable (s : State) (key : Key) : Option State :=
  let s := s.settle
  if s.opened.contains key ∨ s.isClosed key then none
  else do
    let fields ← within true some key s.fields
    return { s with fields, header := key, opened := key :: s.opened }

/-- Adds a table to an array of tables and opens it: what was said of its parts no longer
holds. -/
def openItem (s : State) (key : Key) : Option State :=
  let s := s.settle
  match key.getLast? with
  | none => none
  | some stem =>
    if s.isClosed key then none
    else do
      let fields ← within true (appendTable stem) key.dropLast s.fields
      let keep (k : Key) : Bool := !key.isPrefixOf k
      return { s with
        fields, header := key
        opened := key :: s.opened.filter keep
        closed := s.closed.filter keep }

end State

/-! ## Statements -/

def readStatement (s : State) (cs : List Char) : Except Fault (State × List Char) :=
  match cs with
  | '#' :: rest => .ok (s, '#' :: rest)
  | '[' :: '[' :: rest => do
    let (key, rest) ← readKey (skipGap rest)
    let s ← orMalformed (s.openItem key)
    match rest with
    | ']' :: ']' :: rest => return (s, rest)
    | _ => throw .malformed
  | '[' :: rest => do
    let (key, rest) ← readKey (skipGap rest)
    let s ← orMalformed (s.openTable key)
    match rest with
    | ']' :: rest => return (s, rest)
    | _ => throw .malformed
  | cs => do
    let ((key, value), rest) ← readPair cs
    let s ← orMalformed (s.assign key value)
    return (s, rest)

/-- Skips a comment up to the end of its line. -/
def skipComment : List Char → Except Fault (List Char)
  | '#' :: rest =>
    if (rest.takeWhile (· != '\n')).any isControl then .error .malformed
    else .ok (rest.dropWhile (· != '\n'))
  | cs => .ok cs

/-- Reads statements to the end of the text; `fuel` bounds the number of lines. -/
def readStatements : Nat → State → List Char → Except Fault Table
  | 0, _, _ => .error .malformed
  | fuel + 1, s, cs =>
    match skipGap cs with
    | [] => .ok s.fields
    | '\n' :: rest => readStatements fuel s rest
    | cs => do
      let (s, rest) ← readStatement s cs
      let rest ← skipComment (skipGap rest)
      match rest with
      | [] => return s.fields
      | '\n' :: rest => readStatements fuel s rest
      | _ => throw .malformed

/-- Writes a line feed for each pair of carriage return and line feed. -/
def foldPairs : List Char → List Char
  | [] => []
  | '\r' :: '\n' :: rest => '\n' :: foldPairs rest
  | c :: rest => c :: foldPairs rest

def read (cs : List Char) : Except Fault Table :=
  let cs := foldPairs cs
  readStatements (cs.length + 1) .start cs

end CallSiteIds.Toml
