import UtxoScript.Json.Reader

/-!
# Writing JSON

A value is written as its tokens, one behind the other and without blanks. The members of an object
keep their order. Characters beyond ASCII stand in texts as they are.
-/

namespace UtxoScript.Json

namespace Token

/-- A character as it stands in a text: the quote and the backslash behind a backslash, the control
characters by an escape of their own or by their code point in hexadecimal, and every other character
as it is. -/
def escaped (c : Char) : List Char :=
  if c = '"' then ['\\', '"']
  else if c = '\\' then ['\\', '\\']
  else if c = '\x08' then ['\\', 'b']
  else if c = '\x0c' then ['\\', 'f']
  else if c = '\n' then ['\\', 'n']
  else if c = '\r' then ['\\', 'r']
  else if c = '\t' then ['\\', 't']
  else if c.toNat < 0x20 then
    ['\\', 'u', '0', '0', Nat.digitChar (c.toNat / 16), Nat.digitChar (c.toNat % 16)]
  else [c]

/-- The characters of a token. A text that is no string is written as half of a surrogate pair, which
is how it came to be read. -/
def write : Token → List Char
  | .openArray => ['[']
  | .closeArray => [']']
  | .openObject => ['\x7b']
  | .closeObject => ['\x7d']
  | .comma => [',']
  | .colon => [':']
  | .null => ['n', 'u', 'l', 'l']
  | .bool true => ['t', 'r', 'u', 'e']
  | .bool false => ['f', 'a', 'l', 's', 'e']
  | .number lexeme => lexeme
  | .text none => ['"', '\\', 'u', 'd', '8', '0', '0', '"']
  | .text (some s) => '"' :: (s.toList.flatMap escaped ++ ['"'])

end Token

/-- An item is smaller than its array. -/
theorem sizeOf_item_lt {item : Json} {items : List Json} (h : item ∈ items) :
    sizeOf item < sizeOf (array items) := by
  have hlt := List.sizeOf_lt_of_mem h
  rw [array.sizeOf_spec]
  omega

/-- The value of a member is smaller than its object. -/
theorem sizeOf_member_lt {member : Option String × Json} {members : List (Option String × Json)}
    (h : member ∈ members) : sizeOf member.2 < sizeOf (object members) := by
  have hlt := List.sizeOf_lt_of_mem h
  obtain ⟨key, value⟩ := member
  simp only [Prod.mk.sizeOf_spec, object.sizeOf_spec] at hlt ⊢
  omega

/-- The tokens of a value. -/
def tokens : Json → List Token
  | .null => [.null]
  | .bool b => [.bool b]
  | .number lexeme => [.number lexeme]
  | .text content => [.text content]
  | .array items =>
    .openArray :: ([Token.comma].intercalate (items.map tokens) ++ [.closeArray])
  | .object members =>
    .openObject ::
      ([Token.comma].intercalate
          (members.map fun member => .text member.1 :: .colon :: tokens member.2) ++
        [.closeObject])
termination_by json => sizeOf json
decreasing_by
  · exact sizeOf_item_lt ‹_›
  · exact sizeOf_member_lt ‹_›

/-- A value as JSON text. -/
def toText (json : Json) : String := String.ofList (json.tokens.flatMap Token.write)

end UtxoScript.Json
