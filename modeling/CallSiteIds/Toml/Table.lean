import CallSiteIds.Json.Value

/-!
# Nested tables

A TOML document is a table, and a dotted key names a place in the tables within it.  `within`
changes the table at such a place, making the tables on the way that do not exist yet.  Values
are those of JSON documents.
-/

set_option autoImplicit false

namespace CallSiteIds.Toml

open Json (Value putField field?)

/-- A table, with its fields in the order in which they were first written. -/
abbrev Table := List (String × Value)

/-- The parts of a dotted key. -/
abbrev Key := List String

/-- A list with its last item replaced. -/
def replaceLast (v : Value) : List Value → List Value
  | [] => []
  | [_] => [v]
  | x :: y :: rest => x :: replaceLast v (y :: rest)

/-- Changes the table at a key.  Through an array of tables the way leads into its last table,
if `intoArrays` allows that; no way leads through another value. -/
def within (intoArrays : Bool) (change : Table → Option Table) : Key → Table → Option Table
  | [], table => change table
  | name :: key, table =>
    match field? name table with
    | none => (within intoArrays change key []).map fun t => putField name (.object t) table
    | some (.object inner) =>
      (within intoArrays change key inner).map fun t => putField name (.object t) table
    | some (.array vs) =>
      match intoArrays, vs.getLast? with
      | true, some (.object inner) =>
        (within intoArrays change key inner).map fun t =>
          putField name (.array (replaceLast (.object t) vs)) table
      | _, _ => none
    | some _ => none

/-- Adds a field that the table does not have yet. -/
def insertNew (name : String) (value : Value) (table : Table) : Option Table :=
  match field? name table with
  | some _ => none
  | none => some (putField name value table)

/-- Adds an empty table to the array of tables in a field. -/
def appendTable (name : String) (table : Table) : Option Table :=
  match field? name table with
  | none => some (putField name (.array [.object []]) table)
  | some (.array vs) => some (putField name (.array (vs ++ [.object []])) table)
  | some _ => none

/-- Changing nothing within existing tables leaves the table as it was looked up. -/
theorem within_nil (intoArrays : Bool) (change : Table → Option Table) (table : Table) :
    within intoArrays change [] table = change table := rfl

end CallSiteIds.Toml
