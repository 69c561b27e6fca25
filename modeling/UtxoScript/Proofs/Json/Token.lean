import Mathlib.Data.List.Chain
import Mathlib.Data.List.TakeWhile
import UtxoScript.Json.Writer
import UtxoScript.Proofs.Text.Decimal

/-!
# Tokens, written and read

Tokens that stand one behind the other are read as these tokens, if numbers have the form of numbers
and no two words stand side by side: this is the main statement, `lex_flatMap_write`. Each token is
taken off the front of what is written (`lexAfter_write_append`). A word ends where the next token
begins, since that one begins with a character that is in no word.
-/

namespace UtxoScript.Json.Token

/-! ## Words -/

/-- What a reader takes off the front consists of characters of words. -/
def TakesWord (after? : List Char → Option (List Char)) : Prop :=
  ∀ chars rest, after? chars = some rest →
    ∃ front, chars = front ++ rest ∧ ∀ c ∈ front, isWordChar c = true

/-- A character of a word may be taken first. -/
theorem TakesWord.cons {c : Char} {chars rest : List Char} (hc : isWordChar c = true)
    (h : ∃ front, chars = front ++ rest ∧ ∀ d ∈ front, isWordChar d = true) :
    ∃ front, c :: chars = front ++ rest ∧ ∀ d ∈ front, isWordChar d = true := by
  obtain ⟨front, rfl, hfront⟩ := h
  exact ⟨c :: front, rfl, List.forall_mem_cons.2 ⟨hc, hfront⟩⟩

/-- Two readers may take what they take one after the other. -/
theorem TakesWord.bind {first? second? : List Char → Option (List Char)} (hfirst : TakesWord first?)
    (hsecond : TakesWord second?) : TakesWord fun chars => (first? chars).bind second? := by
  intro chars rest h
  obtain ⟨between, hbetween, hrest⟩ := Option.bind_eq_some_iff.1 h
  obtain ⟨front, rfl, hfront⟩ := hfirst _ _ hbetween
  obtain ⟨front', rfl, hfront'⟩ := hsecond _ _ hrest
  refine ⟨front ++ front', (List.append_assoc _ _ _).symm, ?_⟩
  intro c hc
  rcases List.mem_append.1 hc with hc | hc
  · exact hfront c hc
  · exact hfront' c hc

/-- Digits are characters of words. -/
theorem isWordChar_of_isDigit {c : Char} (h : c.isDigit = true) : isWordChar c = true := by
  simp [isWordChar, Char.isAlphanum, h]

/-- Digits are taken while there are any. -/
theorem takesWord_afterDigits? : TakesWord afterDigits? := by
  intro chars rest h
  unfold afterDigits? at h
  split at h
  · next c tail =>
    split at h
    · next hc =>
      cases h
      refine ⟨c :: tail.takeWhile Char.isDigit, ?_, ?_⟩
      · rw [List.cons_append, List.takeWhile_append_dropWhile]
      · rw [List.forall_mem_cons]
        refine ⟨isWordChar_of_isDigit hc, ?_⟩
        intro d hd
        exact isWordChar_of_isDigit (List.mem_takeWhile_imp hd)
    · contradiction
  · contradiction

/-- A zero is taken alone, and any other whole number with all its digits. -/
theorem takesWord_afterWhole? : TakesWord afterWhole? := by
  intro chars rest h
  unfold afterWhole? at h
  split at h
  · cases h
    exact TakesWord.cons (by decide) ⟨[], rfl, by simp⟩
  · exact takesWord_afterDigits? _ _ h

/-- A fraction is taken with its point. -/
theorem takesWord_afterFraction? : TakesWord afterFraction? := by
  intro chars rest h
  unfold afterFraction? at h
  split at h
  · exact TakesWord.cons (by decide) (takesWord_afterDigits? _ _ h)
  · cases h
    exact ⟨[], rfl, by simp⟩

/-- An exponent is taken with its letter and its sign. -/
theorem takesWord_afterExponent? : TakesWord afterExponent? := by
  intro chars rest h
  unfold afterExponent? at h
  split at h
  · next c tail =>
    split at h
    · next hc =>
      have hword : isWordChar c = true := by
        rcases (by simpa using hc : c = 'e' ∨ c = 'E') with rfl | rfl
        · decide
        · decide
      apply TakesWord.cons hword
      split at h
      · exact TakesWord.cons (by decide) (takesWord_afterDigits? _ _ h)
      · exact TakesWord.cons (by decide) (takesWord_afterDigits? _ _ h)
      · exact takesWord_afterDigits? _ _ h
    · cases h
      exact ⟨[], rfl, by simp⟩
  · cases h
    exact ⟨[], rfl, by simp⟩

/-- Numbers consist of characters of words. -/
theorem isWordChar_of_isNumber {lexeme : List Char} (h : isNumber lexeme = true) :
    ∀ c ∈ lexeme, isWordChar c = true := by
  have hunsigned := (takesWord_afterWhole?.bind takesWord_afterFraction?).bind
    takesWord_afterExponent?
  unfold isNumber at h
  -- The whole number is taken but for its sign, and nothing is left of it.
  obtain ⟨front, hfront, hword⟩ := hunsigned _ _ (eq_of_beq h)
  rw [List.append_nil] at hfront
  subst hfront
  split at hword
  · exact List.forall_mem_cons.2 ⟨by decide, hword⟩
  · exact hword

/-- The text of a number has the form of a number. -/
theorem isNumber_toString (n : Nat) : isNumber (toString n).toList = true := by
  obtain ⟨c, rest, hlexeme⟩ := List.exists_cons_of_ne_nil (Text.toList_toString_ne_nil n)
  have hdigits : ∀ d ∈ c :: rest, d.isDigit = true := hlexeme ▸ Text.isDigit_of_mem_toString
  -- A leading zero would have to be taken alone, and a number has none unless it is zero.
  have hwhole : afterWhole? (c :: rest) = some [] := by
    unfold afterWhole?
    split
    · next tail heq =>
      cases heq
      rw [Text.Decimal.eq_nil_of_toString_eq_cons hlexeme]
    · rw [List.forall_mem_cons] at hdigits
      rw [afterDigits?, if_pos hdigits.1, List.dropWhile_eq_nil_iff.2 hdigits.2]
  have hunsigned : c ≠ '-' := by
    rintro rfl
    exact absurd (hdigits '-' List.mem_cons_self) (by decide)
  rw [hlexeme]
  unfold isNumber
  split
  · next heq =>
    cases heq
    exact absurd rfl hunsigned
  · dsimp only
    rw [hwhole]
    rfl

/-- The characters that blanks, texts and tokens of one character begin with are in no word. -/
theorem isWordChar_eq_false_of_mem :
    ∀ c ∈ [' ', '\n', '\r', '\t', '"', '[', ']', '\x7b', '\x7d', ',', ':'],
      isWordChar c = false :=
  List.forall_iff_forall_mem.1 (by decide)

/-- A character of a word is no blank, no quote and no token of its own. -/
theorem of_isWordChar {c : Char} (h : isWordChar c = true) :
    isBlank c = false ∧ c ≠ '"' ∧ punctuation? c = none := by
  have hnot : c ∉ [' ', '\n', '\r', '\t', '"', '[', ']', '\x7b', '\x7d', ',', ':'] := fun hc => by
    rw [isWordChar_eq_false_of_mem c hc] at h
    contradiction
  simp only [List.mem_cons, List.not_mem_nil, or_false, not_or] at hnot
  refine ⟨?_, hnot.2.2.2.2.1, ?_⟩
  · simp [isBlank, hnot]
  · unfold punctuation?
    split <;> simp_all

/-! ## Texts -/

/-- An escape is read as its character. -/
theorem scanText_escape {done : Option (List Char)} {rest rest' : List Char} {c : Option Char}
    (h : escape? rest = some (c, rest')) :
    scanText done ('\\' :: rest) = scanText (done.bind fun done => c.map (· :: done)) rest' := by
  rw [scanText]
  split
  · next hnone =>
    rw [h] at hnone
    contradiction
  · next hsome =>
    rw [h] at hsome
    cases hsome
    rfl

/-- A character that needs no escape is read as itself. -/
theorem scanText_plain {done : Option (List Char)} {rest : List Char} {c : Char} (hquote : c ≠ '"')
    (hbackslash : c ≠ '\\') (hcontrol : ¬ c.toNat < 0x20) :
    scanText done (c :: rest) = scanText (done.map (c :: ·)) rest := by
  rw [scanText]
  · rw [if_neg hcontrol]
  · exact hquote
  · exact hbackslash

/-- The number of a control character is that of its hexadecimal digits. -/
theorem codeUnit?_control {n : Nat} (h : n < 0x20) (rest : List Char) :
    codeUnit? ('0' :: '0' :: Nat.digitChar (n / 16) :: Nat.digitChar (n % 16) :: rest) =
      some (n, rest) := by
  have hvalue : ∀ k < 16, hexValue? (Nat.digitChar k) = some k := by decide
  have hzero : hexValue? '0' = some 0 := by decide
  have hunit : ((0 * 16 + 0) * 16 + n / 16) * 16 + n % 16 = n := by omega
  rw [codeUnit?, hvalue (n / 16) (by omega), hvalue (n % 16) (by omega), hzero]
  simp only [Option.bind_eq_bind, Option.bind_some, Option.pure_def, hunit]

/-- The escape of a control character by its number is read as the character. -/
theorem escape?_control {c : Char} (h : c.toNat < 0x20) (rest : List Char) :
    escape? ('u' :: '0' :: '0' :: Nat.digitChar (c.toNat / 16) :: Nat.digitChar (c.toNat % 16) ::
      rest) = some (some c, rest) := by
  have hlow : isLowSurrogate c.toNat = false := by
    simp only [isLowSurrogate, Bool.and_eq_false_iff, decide_eq_false_iff_not]
    omega
  have hhigh : isHighSurrogate c.toNat = false := by
    simp only [isHighSurrogate, Bool.and_eq_false_iff, decide_eq_false_iff_not]
    omega
  unfold escape?
  simp only [codeUnit?_control h, hlow, hhigh, Bool.false_eq_true, if_false, Char.ofNat_toNat]

/-- A character is read as it stands in a text. -/
theorem scanText_escaped_append (done : List Char) (c : Char) (rest : List Char) :
    scanText (some done) (escaped c ++ rest) = scanText (some (c :: done)) rest := by
  have hescape (e : List Char) (h : escape? (e ++ rest) = some (some c, rest)) :
      scanText (some done) (('\\' :: e) ++ rest) = scanText (some (c :: done)) rest :=
    scanText_escape h
  unfold escaped
  split_ifs with hquote hbackslash hb hf hn hr ht hcontrol
  · exact hescape ['"'] (by rw [hquote]; rfl)
  · exact hescape ['\\'] (by rw [hbackslash]; rfl)
  · exact hescape ['b'] (by rw [hb]; rfl)
  · exact hescape ['f'] (by rw [hf]; rfl)
  · exact hescape ['n'] (by rw [hn]; rfl)
  · exact hescape ['r'] (by rw [hr]; rfl)
  · exact hescape ['t'] (by rw [ht]; rfl)
  · exact hescape _ (escape?_control hcontrol rest)
  · exact scanText_plain hquote hbackslash hcontrol

/-- A string is read up to its closing quote. -/
theorem scanText_flatMap_escaped (done chars rest : List Char) :
    scanText (some done) (chars.flatMap escaped ++ '"' :: rest) =
      some (some (String.ofList (done.reverse ++ chars)), rest) := by
  induction chars generalizing done with
  | nil =>
    rw [List.flatMap_nil, List.nil_append, scanText, List.append_nil]
    rfl
  | cons c chars ih =>
    rw [List.flatMap_cons, List.append_assoc, scanText_escaped_append, ih, List.reverse_cons,
      List.append_assoc]
    rfl

/-- Half of a surrogate pair is read as a text that is no string. -/
theorem scanText_loneSurrogate (rest : List Char) :
    scanText (some []) ('\\' :: 'u' :: 'd' :: '8' :: '0' :: '0' :: '"' :: rest) =
      some (none, rest) := by
  have hescape : escape? ('u' :: 'd' :: '8' :: '0' :: '0' :: '"' :: rest) =
      some (none, '"' :: rest) := rfl
  rw [scanText_escape hescape, scanText]
  rfl

/-! ## Sequences of tokens -/

/-- A token that is a word. -/
def isWord : Token → Bool
  | .null | .bool _ | .number _ => true
  | _ => false

/-- A number has the form of a number. -/
def WellFormed : Token → Prop
  | .number lexeme => isNumber lexeme = true
  | _ => True

/-- A character that is a token is read as the token. -/
theorem lexAfter_punctuation {c : Char} {token : Token} (h : punctuation? c = some token)
    (done : List Token) (rest : List Char) :
    lexAfter done (c :: rest) = lexAfter (token :: done) rest := by
  have hother : isBlank c = false ∧ c ≠ '"' := by
    unfold punctuation? at h
    split at h
    all_goals first | decide | contradiction
  rw [lexAfter, hother.1, if_neg Bool.false_ne_true, if_neg hother.2, h]

/-- A text is read up to its closing quote. -/
theorem lexAfter_text {chars rest : List Char} {content : Option String}
    (h : scanText (some []) chars = some (content, rest)) (done : List Token) :
    lexAfter done ('"' :: chars) = lexAfter (.text content :: done) rest := by
  rw [lexAfter, show isBlank '"' = false from rfl, if_neg Bool.false_ne_true, if_pos rfl]
  split
  · next hnone =>
    rw [h] at hnone
    contradiction
  · next hsome =>
    rw [h] at hsome
    cases hsome
    rfl

/-- A word is read up to the first character that is in no word. -/
theorem lexAfter_word {lexeme rest : List Char} {token : Token} (hword : word? lexeme = some token)
    (hne : lexeme ≠ []) (hchars : ∀ c ∈ lexeme, isWordChar c = true)
    (hrest : ∀ c ∈ rest.head?, isWordChar c = false) (done : List Token) :
    lexAfter done (lexeme ++ rest) = lexAfter (token :: done) rest := by
  obtain ⟨c, chars, rfl⟩ := List.exists_cons_of_ne_nil hne
  rw [List.forall_mem_cons] at hchars
  obtain ⟨hblank, hquote, hpunctuation⟩ := of_isWordChar hchars.1
  -- The word ends where the rest begins.
  have hstop : rest.takeWhile isWordChar = [] ∧ rest.dropWhile isWordChar = rest := by
    cases rest with
    | nil => exact ⟨rfl, rfl⟩
    | cons d tail =>
      have hd : isWordChar d = false := hrest d rfl
      exact ⟨List.takeWhile_cons_of_neg (by simp [hd]), List.dropWhile_cons_of_neg (by simp [hd])⟩
  rw [List.cons_append, lexAfter, hblank, if_neg Bool.false_ne_true, if_neg hquote, hpunctuation,
    List.takeWhile_append_of_pos hchars.2, List.dropWhile_append_of_pos hchars.2, hstop.1, hstop.2,
    List.append_nil, hword]

/-- A number is read as the number. -/
theorem word?_of_isNumber {lexeme : List Char} (h : isNumber lexeme = true) :
    word? lexeme = some (.number lexeme) := by
  unfold word?
  split_ifs with hnull htrue hfalse
  · exact absurd h (by rw [hnull]; decide)
  · exact absurd h (by rw [htrue]; decide)
  · exact absurd h (by rw [hfalse]; decide)
  · rfl

/-- A token is read off the front of what begins with it, if a word ends there. -/
theorem lexAfter_write_append {token : Token} (hform : token.WellFormed) {rest : List Char}
    (hrest : token.isWord = true → ∀ c ∈ rest.head?, isWordChar c = false) (done : List Token) :
    lexAfter done (token.write ++ rest) = lexAfter (token :: done) rest := by
  cases token with
  | openArray => exact lexAfter_punctuation rfl done rest
  | closeArray => exact lexAfter_punctuation rfl done rest
  | openObject => exact lexAfter_punctuation rfl done rest
  | closeObject => exact lexAfter_punctuation rfl done rest
  | comma => exact lexAfter_punctuation rfl done rest
  | colon => exact lexAfter_punctuation rfl done rest
  | null => exact lexAfter_word rfl (by decide) (List.all_eq_true.1 rfl) (hrest rfl) done
  | bool b =>
    cases b with
    | false => exact lexAfter_word rfl (by decide) (List.all_eq_true.1 rfl) (hrest rfl) done
    | true => exact lexAfter_word rfl (by decide) (List.all_eq_true.1 rfl) (hrest rfl) done
  | number lexeme =>
    have hne : lexeme ≠ [] := by
      rintro rfl
      exact Bool.false_ne_true hform
    exact lexAfter_word (word?_of_isNumber hform) hne (isWordChar_of_isNumber hform) (hrest rfl) done
  | text content =>
    cases content with
    | none => exact lexAfter_text (scanText_loneSurrogate rest) done
    | some s =>
      have hscan := scanText_flatMap_escaped [] s.toList rest
      rw [List.reverse_nil, List.nil_append, String.ofList_toList] at hscan
      rw [write, List.cons_append, List.append_assoc]
      exact lexAfter_text hscan done

/-- A token that is no word begins with a character that is in no word. -/
theorem exists_write_eq_cons {token : Token} (h : token.isWord = false) :
    ∃ c chars, token.write = c :: chars ∧ isWordChar c = false := by
  cases token with
  | openArray => exact ⟨_, _, rfl, rfl⟩
  | closeArray => exact ⟨_, _, rfl, rfl⟩
  | openObject => exact ⟨_, _, rfl, rfl⟩
  | closeObject => exact ⟨_, _, rfl, rfl⟩
  | comma => exact ⟨_, _, rfl, rfl⟩
  | colon => exact ⟨_, _, rfl, rfl⟩
  | null => contradiction
  | bool b => contradiction
  | number lexeme => contradiction
  | text content =>
    cases content with
    | none => exact ⟨_, _, rfl, rfl⟩
    | some s => exact ⟨_, _, rfl, rfl⟩

/-- No two words stand side by side. -/
def Apart (tokens : List Token) : Prop :=
  tokens.IsChain fun first second => first.isWord = true → second.isWord = false

/-- Tokens are read as they were written, behind those already read. -/
theorem lexAfter_flatMap_write {tokens : List Token} (hform : ∀ token ∈ tokens, token.WellFormed)
    (happart : Apart tokens) (done : List Token) :
    lexAfter done (tokens.flatMap write) = some (done.reverse ++ tokens) := by
  induction tokens generalizing done with
  | nil =>
    rw [List.flatMap_nil, lexAfter, List.append_nil]
  | cons token rest ih =>
    rw [List.forall_mem_cons] at hform
    -- Behind a word there is nothing or a token that is no word.
    have hrest : token.isWord = true → ∀ c ∈ (rest.flatMap write).head?, isWordChar c = false := by
      intro hword
      cases rest with
      | nil => simp
      | cons next rest =>
        obtain ⟨c, chars, hwrite, hc⟩ :=
          exists_write_eq_cons ((List.isChain_cons_cons.1 happart).1 hword)
        rw [List.flatMap_cons, hwrite]
        rintro d ⟨⟩
        exact hc
    rw [List.flatMap_cons, lexAfter_write_append hform.1 hrest, ih hform.2 happart.tail]
    simp

/-- Tokens of which no two words stand side by side are read as they were written. -/
theorem lex_flatMap_write {tokens : List Token} (hform : ∀ token ∈ tokens, token.WellFormed)
    (happart : Apart tokens) : lex (tokens.flatMap write) = some tokens :=
  lexAfter_flatMap_write hform happart []

end UtxoScript.Json.Token
