/-!
# Quoted characters

Messages that name a character show it between apostrophes, with an escape where the character
itself would not be seen.
-/

namespace UtxoScript.Text

/-- The apostrophe that encloses a quoted character. -/
def apostrophe : Char := Char.ofNat 0x27

/-- The characters that have no visible form: U+0000 to U+001F and U+007F to U+009F. -/
def isControl (c : Char) : Bool := c.toNat < 0x20 || (0x7f ≤ c.toNat && c.toNat ≤ 0x9f)

/-- A character as it stands inside its quotes: the apostrophe, the backslash and the commonest
control characters by a backslash and one character, the other control characters by their code
point in hexadecimal, and every other character as it is. -/
def escaped (c : Char) : String :=
  if c = apostrophe then "\\'"
  else if c = '\\' then "\\\\"
  else if c = '\n' then "\\n"
  else if c = '\r' then "\\r"
  else if c = '\t' then "\\t"
  else if c.toNat = 0 then "\\0"
  else if isControl c then "\\u\x7b" ++ String.ofList (Nat.toDigits 16 c.toNat) ++ "\x7d"
  else c.toString

/-- A character between apostrophes. -/
def quoted (c : Char) : String := "'" ++ escaped c ++ "'"

end UtxoScript.Text
