import CallSiteIds.Decimal.Shortest
import CallSiteIds.Json.Value
import CallSiteIds.Text.Quoted

/-!
# Values in diagnostics

A message that rejects a value shows it: the absent value and the truth values by name,
strings quoted, containers with their items.
-/

set_option autoImplicit false

namespace CallSiteIds.Json

/-- A diagnostic writes a number without an exponent while the point stands at most sixteen
digits to the right of the first digit or three zeros to its left; an exponent has a sign and
two digits. -/
def diagnosticLayout : Decimal.Layout where
  leastPoint := -3
  greatestPoint := 16
  exponentText e :=
    let digits := Decimal.naturalText e.natAbs
    'e' :: (if e < 0 then '-' else '+') :: (if digits.length < 2 then '0' :: digits else digits)
  infinityText := "inf"
  undefinedText := "nan"

/-- A number as a diagnostic shows it. -/
def describeFloat (x : Decimal.Binary64) : String :=
  String.ofList (x.text diagnosticLayout)

/-- Items with a comma and a space between them. -/
def commaSeparated (items : List String) : String :=
  ", ".intercalate items

mutual

/-- A value as a diagnostic shows it. -/
def describe : Value → String
  | .null => "None"
  | .bool true => "True"
  | .bool false => "False"
  | .int n => Decimal.integerString n
  | .float x => describeFloat x
  | .string s => Text.quoted s
  | .array items => "[" ++ commaSeparated (describeItems items) ++ "]"
  | .object fields => "\x7b" ++ commaSeparated (describeFields fields) ++ "\x7d"

/-- The items of an array. -/
def describeItems : List Value → List String
  | [] => []
  | v :: vs => describe v :: describeItems vs

/-- The fields of an object. -/
def describeFields : List (String × Value) → List String
  | [] => []
  | (k, v) :: fields => (Text.quoted k ++ ": " ++ describe v) :: describeFields fields

end

end CallSiteIds.Json
