import UtxoScript.Json.Token
import UtxoScript.Json.Value

/-!
# Reading JSON

Tokens are taken one by one. The state of reading is what has to come next and the arrays and
objects that are still open, so that nesting of any depth is read. `read?` accepts a text of exactly
one value.
-/

namespace UtxoScript.Json

/-- An array or object that is open, or a member whose value is awaited. -/
inductive Frame
  /-- An array with the items read so far, the last first. -/
  | array (items : List Json)
  /-- An object with the members read so far, the last first. -/
  | object (members : List (Option String × Json))
  /-- The key of a member of the object around it. -/
  | member (key : Option String)

/-- What may come next. -/
inductive Expect
  /-- A value. -/
  | value
  /-- A value or the end of the array. -/
  | item
  /-- A key. -/
  | key
  /-- A key or the end of the object. -/
  | member
  /-- The colon behind a key. -/
  | colon
  /-- A comma or the end of what is open. -/
  | separator

/-- How far reading has come. -/
inductive Progress
  /-- Something is still to come. -/
  | reading (expect : Expect) (frames : List Frame)
  /-- The value is complete. -/
  | finished (value : Json)

/-- Puts a complete value where it belongs. -/
def put (value : Json) : List Frame → Option Progress
  | [] => some (.finished value)
  | .array items :: frames => some (.reading .separator (.array (value :: items) :: frames))
  | .member key :: .object members :: frames =>
    some (.reading .separator (.object ((key, value) :: members) :: frames))
  | _ => none

/-- Takes a token where a value may begin. -/
def takeValue (token : Token) (frames : List Frame) : Option Progress :=
  match token with
  | .null => put .null frames
  | .bool b => put (.bool b) frames
  | .number lexeme => put (.number lexeme) frames
  | .text content => put (.text content) frames
  | .openArray => some (.reading .item (.array [] :: frames))
  | .openObject => some (.reading .member (.object [] :: frames))
  | _ => none

/-- Takes a token where a key has to come. -/
def takeKey (token : Token) (frames : List Frame) : Option Progress :=
  match token with
  | .text content => some (.reading .colon (.member content :: frames))
  | _ => none

/-- Takes the token that ends what is open. -/
def close (token : Token) (frames : List Frame) : Option Progress :=
  match token, frames with
  | .closeArray, .array items :: frames => put (.array items.reverse) frames
  | .closeObject, .object members :: frames => put (.object members.reverse) frames
  | _, _ => none

/-- Takes the next token. -/
def take (progress : Progress) (token : Token) : Option Progress :=
  match progress with
  | .finished _ => none
  | .reading expect frames =>
    match expect, token with
    | .value, token => takeValue token frames
    | .item, .closeArray => close .closeArray frames
    | .item, token => takeValue token frames
    | .key, token => takeKey token frames
    | .member, .closeObject => close .closeObject frames
    | .member, token => takeKey token frames
    | .colon, .colon => some (.reading .value frames)
    | .colon, _ => none
    | .separator, .comma =>
      match frames with
      | .array items :: frames => some (.reading .value (.array items :: frames))
      | .object members :: frames => some (.reading .key (.object members :: frames))
      | _ => none
    | .separator, token => close token frames

/-- The value of a sequence of tokens. -/
def ofTokens? (tokens : List Token) : Option Json :=
  match tokens.foldlM take (.reading .value []) with
  | some (.finished value) => some value
  | _ => none

/-- The value of a JSON text. -/
def read? (text : String) : Option Json := (Token.lex text.toList).bind ofTokens?

end UtxoScript.Json
