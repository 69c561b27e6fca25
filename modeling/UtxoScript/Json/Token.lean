/-!
# JSON tokens

A JSON text is cut into tokens before it is read: brackets, separators, texts, and the longest runs
of word characters, which have to be a literal or a number. Two words never stand side by side in a
JSON text, so that the longest run is always the right one. `Token.lex` refuses a text in which
something is no token.
-/

namespace UtxoScript.Json

/-- A token. -/
inductive Token
  /-- The bracket before the items of an array. -/
  | openArray
  /-- The bracket after the items of an array. -/
  | closeArray
  /-- The brace before the members of an object. -/
  | openObject
  /-- The brace after the members of an object. -/
  | closeObject
  /-- A comma. -/
  | comma
  /-- A colon. -/
  | colon
  /-- The word `null`. -/
  | null
  /-- One of the words `true` and `false`. -/
  | bool (b : Bool)
  /-- A number, as written. -/
  | number (lexeme : List Char)
  /-- A text, if it is a string. -/
  | text (content : Option String)
  deriving DecidableEq

namespace Token

/-- The characters that may stand between tokens. -/
def isBlank (c : Char) : Bool := c == ' ' || c == '\n' || c == '\r' || c == '\t'

/-- The characters of literals and numbers. -/
def isWordChar (c : Char) : Bool := c.isAlphanum || c == '+' || c == '-' || c == '.'

/-- The tokens of one character. -/
def punctuation? (c : Char) : Option Token :=
  match c with
  | '[' => some .openArray
  | ']' => some .closeArray
  | '\x7b' => some .openObject
  | '\x7d' => some .closeObject
  | ',' => some .comma
  | ':' => some .colon
  | _ => none

/-! ## Numbers -/

/-- What follows a sequence of digits, of which there has to be at least one. -/
def afterDigits? : List Char → Option (List Char)
  | c :: rest => if c.isDigit then some (rest.dropWhile Char.isDigit) else none
  | [] => none

/-- What follows the whole part of a number: a zero, or digits of which the first is not zero. -/
def afterWhole? : List Char → Option (List Char)
  | '0' :: rest => some rest
  | chars => afterDigits? chars

/-- What follows the fraction of a number, if it has one. -/
def afterFraction? : List Char → Option (List Char)
  | '.' :: rest => afterDigits? rest
  | chars => some chars

/-- What follows the exponent of a number, if it has one. -/
def afterExponent? : List Char → Option (List Char)
  | c :: rest =>
    if c == 'e' || c == 'E' then
      match rest with
      | '+' :: digits => afterDigits? digits
      | '-' :: digits => afterDigits? digits
      | digits => afterDigits? digits
    else some (c :: rest)
  | [] => some []

/-- Whether characters are a number: a minus sign or none, a whole part, and a fraction and an
exponent or none. -/
def isNumber (lexeme : List Char) : Bool :=
  let unsigned := match lexeme with
    | '-' :: rest => rest
    | chars => chars
  ((afterWhole? unsigned).bind afterFraction?).bind afterExponent? == some []

/-- The literal or number of a run of word characters. -/
def word? (lexeme : List Char) : Option Token :=
  if lexeme = ['n', 'u', 'l', 'l'] then some .null
  else if lexeme = ['t', 'r', 'u', 'e'] then some (.bool true)
  else if lexeme = ['f', 'a', 'l', 's', 'e'] then some (.bool false)
  else if isNumber lexeme then some (.number lexeme)
  else none

/-! ## Texts -/

/-- The value of a hexadecimal digit. -/
def hexValue? (c : Char) : Option Nat :=
  if c.isDigit then some (c.toNat - 0x30)
  else if 'a' ≤ c ∧ c ≤ 'f' then some (c.toNat - 0x57)
  else if 'A' ≤ c ∧ c ≤ 'F' then some (c.toNat - 0x37)
  else none

/-- The number of sixteen bits that four hexadecimal digits spell, and what follows them. -/
def codeUnit? : List Char → Option (Nat × List Char)
  | a :: b :: c :: d :: rest => do
    let a ← hexValue? a
    let b ← hexValue? b
    let c ← hexValue? c
    let d ← hexValue? d
    return (((a * 16 + b) * 16 + c) * 16 + d, rest)
  | _ => none

/-- Whether a number of sixteen bits is the first half of a surrogate pair. -/
def isHighSurrogate (unit : Nat) : Bool := 0xd800 ≤ unit && unit ≤ 0xdbff

/-- Whether a number of sixteen bits is the second half of a surrogate pair. -/
def isLowSurrogate (unit : Nat) : Bool := 0xdc00 ≤ unit && unit ≤ 0xdfff

/-- The number of sixteen bits of an escape that stands at the front. -/
def escapedUnit? : List Char → Option (Nat × List Char)
  | '\\' :: 'u' :: rest => codeUnit? rest
  | _ => none

/-- The character of an escape whose backslash has been read, and what follows it. There is none
where half of a surrogate pair stands alone. -/
def escape? : List Char → Option (Option Char × List Char)
  | '"' :: rest => some (some '"', rest)
  | '\\' :: rest => some (some '\\', rest)
  | '/' :: rest => some (some '/', rest)
  | 'b' :: rest => some (some '\x08', rest)
  | 'f' :: rest => some (some '\x0c', rest)
  | 'n' :: rest => some (some '\n', rest)
  | 'r' :: rest => some (some '\r', rest)
  | 't' :: rest => some (some '\t', rest)
  | 'u' :: rest =>
    match codeUnit? rest with
    | none => none
    | some (unit, rest) =>
      if isLowSurrogate unit then some (none, rest)
      else if isHighSurrogate unit then
        match escapedUnit? rest with
        | some (second, rest') =>
          if isLowSurrogate second then
            some (some (Char.ofNat (0x10000 + (unit - 0xd800) * 0x400 + (second - 0xdc00))), rest')
          else some (none, rest)
        | none => some (none, rest)
      else some (some (Char.ofNat unit), rest)
  | _ => none

theorem length_of_codeUnit? {chars rest : List Char} {unit : Nat}
    (h : codeUnit? chars = some (unit, rest)) : rest.length < chars.length := by
  unfold codeUnit? at h
  split at h
  · simp only [Option.bind_eq_bind, Option.bind_eq_some_iff, Option.pure_def, Option.some.injEq,
      Prod.mk.injEq] at h
    obtain ⟨_, _, _, _, _, _, _, _, _, rfl⟩ := h
    simp only [List.length_cons]
    omega
  · contradiction

theorem length_of_escapedUnit? {chars rest : List Char} {unit : Nat}
    (h : escapedUnit? chars = some (unit, rest)) : rest.length < chars.length := by
  unfold escapedUnit? at h
  split at h
  · have := length_of_codeUnit? h
    simp only [List.length_cons]
    omega
  · contradiction

/-- An escape is not empty. -/
theorem length_of_escape? {chars rest : List Char} {c : Option Char}
    (h : escape? chars = some (c, rest)) : rest.length < chars.length := by
  unfold escape? at h
  split at h
  case h_9 tail =>
    split at h
    · contradiction
    · next unit after hunit =>
      have short := length_of_codeUnit? hunit
      split at h
      · cases h
        simp only [List.length_cons]
        omega
      · split at h
        · split at h
          · next hsecond =>
            have := length_of_escapedUnit? hsecond
            split at h <;> cases h <;> simp only [List.length_cons] <;> omega
          · cases h
            simp only [List.length_cons]
            omega
        · cases h
          simp only [List.length_cons]
          omega
  case h_10 => contradiction
  all_goals
    cases h
    simp

/-- Reads a text up to its closing quote, behind the characters already read, which come last first.
They are no string once half of a surrogate pair has stood alone. -/
def scanText (done : Option (List Char)) (chars : List Char) :
    Option (Option String × List Char) :=
  match chars with
  | [] => none
  | '"' :: rest => some (done.map (fun done => String.ofList done.reverse), rest)
  | '\\' :: rest =>
    match _escape : escape? rest with
    | none => none
    | some (c, rest') =>
      scanText (done.bind (fun done => c.map (· :: done))) rest'
  | c :: rest =>
    if c.toNat < 0x20 then none else scanText (done.map (c :: ·)) rest
termination_by chars.length
decreasing_by
  · have := length_of_escape? (by assumption)
    simp only [List.length_cons]
    omega
  · simp

/-- A text that has been read leaves less than there was. -/
theorem length_of_scanText {done : Option (List Char)} {chars rest : List Char}
    {content : Option String} (h : scanText done chars = some (content, rest)) :
    rest.length < chars.length := by
  fun_induction scanText done chars with
  | case1 => contradiction
  | case2 done tail =>
    cases h
    simp
  | case3 => contradiction
  | case4 done tail c after hescape ih =>
    have := length_of_escape? hescape
    have := ih h
    simp only [List.length_cons]
    omega
  | case5 => contradiction
  | case6 done c tail _ _ _ ih =>
    have := ih h
    simp only [List.length_cons]
    omega

/-! ## Sequences of tokens -/

/-- The tokens of a text, behind those already read, which come last first. -/
def lexAfter (done : List Token) (chars : List Char) : Option (List Token) :=
  match chars with
  | [] => some done.reverse
  | c :: rest =>
    if isBlank c then lexAfter done rest
    else if c = '"' then
      match _text : scanText (some []) rest with
      | none => none
      | some (content, rest') => lexAfter (.text content :: done) rest'
    else
      match punctuation? c with
      | some token => lexAfter (token :: done) rest
      | none =>
        match word? (c :: rest.takeWhile isWordChar) with
        | some token => lexAfter (token :: done) (rest.dropWhile isWordChar)
        | none => none
termination_by chars.length
decreasing_by
  · simp
  · have := length_of_scanText (by assumption)
    simp only [List.length_cons]
    omega
  · simp
  · have := (List.dropWhile_suffix isWordChar (l := rest)).length_le
    simp only [List.length_cons]
    omega

/-- The tokens of a text. -/
def lex (chars : List Char) : Option (List Token) := lexAfter [] chars

end Token

end UtxoScript.Json
