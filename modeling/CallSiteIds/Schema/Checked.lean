import CallSiteIds.Json.Value
import CallSiteIds.Schema.Issue

/-!
# Reading documents as models

`Checked` is a reading that collects all issues: where two parts are read and both are wrong,
the issues of the first come before those of the second.  The readers of fields, lists and
objects below are combined with `<$>` and `<*>` in the order in which a model declares its
fields.
-/

set_option autoImplicit false

namespace CallSiteIds.Schema

open CallSiteIds.Json (Value)

/-- A reading: what was read, or all that is wrong. -/
inductive Checked (α : Type) where
  | valid (a : α)
  | invalid (issues : List Issue)

namespace Checked

variable {α β : Type}

/-- A function applied to what was read. -/
def map (f : α → β) : Checked α → Checked β
  | valid a => valid (f a)
  | invalid issues => invalid issues

/-- A read function applied to what was read; the issues of both are kept in order. -/
def apply : Checked (α → β) → Checked α → Checked β
  | valid f, valid a => valid (f a)
  | valid _, invalid issues => invalid issues
  | invalid issues, valid _ => invalid issues
  | invalid first, invalid second => invalid (first ++ second)

instance : Functor Checked where
  map := map

instance : Applicative Checked where
  pure := valid
  seq f a := apply f (a ())

/-- The same reading one step further down. -/
def under (step : Step) : Checked α → Checked α
  | valid a => valid a
  | invalid issues => invalid (issues.map fun i => { i with path := step :: i.path })

/-- A reading with one issue at the document itself. -/
def reject (cause : Cause) : Checked α :=
  invalid [⟨[], cause⟩]

/-- Goes on with what was read, if it was valid. -/
def andThen (a : Checked α) (f : α → Checked β) : Checked β :=
  match a with
  | valid a => f a
  | invalid issues => invalid issues

/-- The reading as a result, under the name of its model. -/
def toExcept (model : String) : Checked α → Except Failure α
  | valid a => .ok a
  | invalid issues => .error ⟨model, issues⟩

end Checked

open Checked

variable {α : Type}

/-- The fields of an object. -/
abbrev Fields := List (String × Value)

/-- Reads a document that must be an object. -/
def model (read : Fields → Checked α) : Value → Checked α
  | .object fields => read fields
  | _ => reject .modelType

/-- Reads a field that must be present. -/
def field (name : String) (read : Value → Checked α) (fields : Fields) : Checked α :=
  (match Json.field? name fields with
    | some v => read v
    | none => reject .missing).under (.field name)

/-- Reads a field that may be absent. -/
def fieldOr (name : String) (default : α) (read : Value → Checked α) (fields : Fields) :
    Checked α :=
  match Json.field? name fields with
  | some v => (read v).under (.field name)
  | none => valid default

/-- Reads a value that may be null. -/
def nullable (read : Value → Checked α) : Value → Checked (Option α)
  | .null => valid none
  | v => (read v).map some

/-- Reads items, each at its index. -/
def items (read : Value → Checked α) : Nat → List Value → Checked (List α)
  | _, [] => valid []
  | i, v :: vs => List.cons <$> (read v).under (.index i) <*> items read (i + 1) vs

/-- Reads a list of any length. -/
def list (read : Value → Checked α) : Value → Checked (List α)
  | .array vs => items read 0 vs
  | _ => reject .listType

/-- Reads a list that is kept as a tuple. -/
def tuple (read : Value → Checked α) : Value → Checked (List α)
  | .array vs => items read 0 vs
  | _ => reject .tupleType

/-- Tells whether a reading succeeds. -/
def succeeds (read : Value → Checked α) (v : Value) : Bool :=
  match read v with
  | .valid _ => true
  | .invalid _ => false

/-- Reads a tuple with at least one valid item. -/
def nonemptyTuple (read : Value → Checked α) : Value → Checked (List α)
  | .array vs =>
    if vs.any (succeeds read) then items read 0 vs
    else (fun xs (_ : Unit) => xs) <$> items read 0 vs <*> reject .tooShort
  | _ => reject .tupleType

end CallSiteIds.Schema
