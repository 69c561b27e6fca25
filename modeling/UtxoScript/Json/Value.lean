import UtxoScript.Text.Decimal

/-!
# JSON values

Values as the data formats of this library need them. Members of an object keep their order, and a
key may come twice. A number is kept as it is written, since each reader decides which numbers fit.
A text may name half of a surrogate pair alone, in which case it is no string; only a reader that
wants the string has to refuse it.
-/

namespace UtxoScript

/-- A JSON value. -/
inductive Json
  /-- The value `null`. -/
  | null
  /-- A truth value. -/
  | bool (b : Bool)
  /-- A number, as written. -/
  | number (lexeme : List Char)
  /-- A text, if it is a string. -/
  | text (content : Option String)
  /-- An array. -/
  | array (items : List Json)
  /-- An object. -/
  | object (members : List (Option String × Json))
  deriving Inhabited

namespace Json

/-- A string. -/
def string (s : String) : Json := .text (some s)

/-- A natural number. -/
def natural (n : Nat) : Json := .number (toString n).toList

/-- An object whose keys are strings. -/
def record (members : List (String × Json)) : Json :=
  .object (members.map (fun member => (some member.1, member.2)))

/-- A natural number below `bound`, written without sign, fraction and exponent. -/
def below? (bound : Nat) : Json → Option Nat
  | .number lexeme => Text.Decimal.below? bound lexeme
  | _ => none

/-- A byte. -/
def byte? (json : Json) : Option UInt8 := (json.below? UInt8.size).map UInt8.ofNat

/-- A string. -/
def string? : Json → Option String
  | .text content => content
  | _ => none

/-- An array. -/
def array? : Json → Option (List Json)
  | .array items => some items
  | _ => none

/-- The name of an alternative that holds nothing: a string, or an object with that key alone and
`null` behind it. -/
def tag? : Json → Option String
  | .text content => content
  | .object [(key, .null)] => key
  | _ => none

/-- The values behind a key, in order. -/
def valuesOf (key : String) (members : List (Option String × Json)) : List Json :=
  members.filterMap (fun member => if member.1 = some key then some member.2 else none)

/-- The value behind a key that comes at most once, `none` where it does not come. -/
def field? (members : List (Option String × Json)) (key : String) : Option (Option Json) :=
  match valuesOf key members with
  | [] => some none
  | [value] => some (some value)
  | _ => none

/-- The fields of a record, in the order of their names. A record is an object in which no field
comes twice, with any other members besides, or an array of exactly the fields. -/
def fields? (names : List String) : Json → Option (List (Option Json))
  | .array items => if items.length = names.length then some (items.map some) else none
  | .object members =>
    if members.all (·.1.isSome) then names.mapM (field? members) else none
  | _ => none

end Json

end UtxoScript
