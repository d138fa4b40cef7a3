import FiberWeave.Decimal.Shortest
import FiberWeave.Text.Quoted

/-!
# Errors in JSON texts

* `Json.Found` — what a text has in a place where something else is expected.
* `Json.Error` — why a text is not what is expected, with its wording in `message?`.
-/

namespace FiberWeave.Json

/-- What a text has in a place where something else is expected. -/
inductive Found where
  | null
  | bool (b : Bool)
  | integer (n : Int)
  | fraction (negative : Bool) (value : Decimal.Binary64)
  | text (s : String)
  | array
  | object
  deriving DecidableEq, Repr, Inhabited

/-- The wording for what was found. -/
def Found.wording : Found → String
  | null => "null"
  | bool b => if b then "boolean `true`" else "boolean `false`"
  | integer n => "integer `" ++ toString n ++ "`"
  | fraction negative value =>
      "floating point `" ++ (if negative then "-" else "") ++ value.text ++ "`"
  | text s => "string " ++ Text.quote s
  | array => "sequence"
  | object => "map"

/-- Why a text is not what is expected. -/
inductive Error where
  /-- The text is no JSON. -/
  | malformed
  /-- The text ends too early. -/
  | cutOff
  | unknownField (name : String) (known : List String)
  | duplicateField (name : String)
  | missingField (name : String)
  | wrongType (found : Found) (expected : String)
  | wrongLength (found : Nat) (expected : String)
  deriving DecidableEq, Repr, Inhabited

/-- The names that a field may have, as a message lists them. -/
def listOfNames (names : List String) : String :=
  match names with
  | [] => "there are no fields"
  | [a] => "expected `" ++ a ++ "`"
  | [a, b] => "expected `" ++ a ++ "` or `" ++ b ++ "`"
  | names => "expected one of " ++ ", ".intercalate (names.map fun n => "`" ++ n ++ "`")

/-- The wording of an error about what a text says. A text that is no JSON gets none here. -/
def Error.message? : Error → Option String
  | malformed | cutOff => none
  | unknownField name known => some ("unknown field `" ++ name ++ "`, " ++ listOfNames known)
  | duplicateField name => some ("duplicate field `" ++ name ++ "`")
  | missingField name => some ("missing field `" ++ name ++ "`")
  | wrongType found expected =>
      some ("invalid type: " ++ found.wording ++ ", expected " ++ expected)
  | wrongLength found expected =>
      some (s!"invalid length {found}, expected " ++ expected)

end FiberWeave.Json
