import UtxoScript.Proofs.Text.Hex

/-!
# Reading any text as hexadecimal

What comes of reading a text is said without the reader in `Outcome`, and `decode_outcome` says that
the reader keeps to it: an odd number of bytes is reported first, then the first byte that is no
digit, and a text of an even number of digits spells bytes. A text is read as the bytes that are
written like it in lower case, and as no others (`decode_eq_ok_iff`).
-/

namespace UtxoScript.Text.Hex

/-! ## Digits of either case -/

/-- The digits of hexadecimal in both cases. -/
def digitsOfBothCases : List Char := "0123456789ABCDEFabcdef".toList

/-- The byte is a hexadecimal digit in ASCII. -/
def IsDigit (byte : UInt8) : Prop := byte ∈ digitsOfBothCases.map asciiByte

/-- The bytes with a value are the digits. -/
theorem digitValue?_isSome_iff (byte : UInt8) : (digitValue? byte).isSome ↔ IsDigit byte := by
  have hall : ∀ n < 256, (digitValue? (UInt8.ofNat n)).isSome ↔
      UInt8.ofNat n ∈ digitsOfBothCases.map asciiByte := by
    decide +kernel
  have hbyte := hall byte.toNat byte.toNat_lt
  rwa [UInt8.ofNat_toNat] at hbyte

/-- A digit has a value below sixteen, and in lower case it is what is written for the value. -/
theorem exists_value_of_mem {c : Char} (h : c ∈ digitsOfBothCases) :
    ∃ n < 16, digitValue? (asciiByte c) = some (UInt8.ofNat n) ∧ c.toLower = Nat.digitChar n := by
  have hall : ∀ c ∈ digitsOfBothCases, ∃ n < 16,
      digitValue? (asciiByte c) = some (UInt8.ofNat n) ∧ c.toLower = Nat.digitChar n :=
    List.forall_iff_forall_mem.1 (by decide +kernel)
  exact hall c h

/-- Digits of either case are ASCII characters. -/
theorem digitsOfBothCases_ascii : ∀ c ∈ digitsOfBothCases, c.toNat < 0x80 :=
  List.forall_iff_forall_mem.1 (by decide)

/-- Letters beyond ASCII have no lower case. -/
theorem toLower_of_not_ascii {c : Char} (h : ¬ c.toNat < 0x80) : c.toLower = c := by
  unfold Char.toLower
  refine dif_neg ?_
  rintro ⟨-, hle⟩
  have hnat : c.toNat ≤ 'Z'.toNat := hle
  exact h (Nat.lt_of_le_of_lt hnat (by decide))

/-- What is a digit in lower case is a digit. -/
theorem mem_digitsOfBothCases {c : Char} (h : c.toLower ∈ digits) : c ∈ digitsOfBothCases := by
  have hall : ∀ n < 0x80, (Char.ofNat n).toLower ∈ digits → Char.ofNat n ∈ digitsOfBothCases := by
    decide +kernel
  by_cases hascii : c.toNat < 0x80
  · have hc := hall c.toNat hascii
    rw [Char.ofNat_toNat] at hc
    exact hc h
  · rw [toLower_of_not_ascii hascii] at h
    exact absurd (digits_ascii c h) hascii

/-! ## Reading digits -/

/-- The two digits of the byte that two digits spell are these digits in lower case. -/
theorem digitsOf_byteOf {high low : Char} (hhigh : high ∈ digitsOfBothCases)
    (hlow : low ∈ digitsOfBothCases) :
    digitsOf (byteOf (asciiByte high) (asciiByte low)) = [high.toLower, low.toLower] := by
  obtain ⟨m, hm, hvalue, hchar⟩ := exists_value_of_mem hhigh
  obtain ⟨n, hn, hvalue', hchar'⟩ := exists_value_of_mem hlow
  have hbyte : (byteOf (asciiByte high) (asciiByte low)).toNat = m * 16 + n := by
    rw [byteOf, hvalue, hvalue', Option.getD_some, Option.getD_some, UInt8.toNat_add,
      UInt8.toNat_mul, UInt8.toNat_ofNat_of_lt' (show m < 256 by omega),
      UInt8.toNat_ofNat_of_lt' (show n < 256 by omega)]
    change (m * 16 % 256 + n) % 256 = m * 16 + n
    omega
  rw [digitsOf, hbyte, hchar, hchar', show (m * 16 + n) / 16 = m by omega,
    show (m * 16 + n) % 16 = n by omega]

/-- The bytes that pairs of digits spell are written with these digits in lower case. -/
theorem toList_encode_pairsAfter : ∀ {chars : List Char}, chars.length % 2 = 0 →
    (∀ c ∈ chars, c ∈ digitsOfBothCases) →
    (encode (pairsAfter [] (chars.map asciiByte))).toList = chars.map Char.toLower
  | [], _, _ => rfl
  | [_], heven, _ => absurd heven (by simp)
  | high :: low :: rest, heven, hdigits => by
    have hrest : rest.length % 2 = 0 := by
      simp only [List.length_cons] at heven
      omega
    rw [List.forall_mem_cons, List.forall_mem_cons] at hdigits
    have ih := toList_encode_pairsAfter hrest hdigits.2.2
    rw [encode, String.toList_ofList] at ih ⊢
    rw [List.map_cons, List.map_cons, pairsAfter, pairsAfter_eq, List.flatMap_append, ih,
      List.reverse_singleton, List.flatMap_singleton, digitsOf_byteOf hdigits.1 hdigits.2.1]
    rfl

/-- The character of the byte of an ASCII character. -/
theorem charOfNat_asciiByte {c : Char} (h : c.toNat < 0x80) :
    Char.ofNat (asciiByte c).toNat = c := by
  rw [asciiByte, UInt8.toNat_ofNat_of_lt' (Nat.lt_trans h (by decide)), Char.ofNat_toNat]

/-- A text whose bytes are digits consists of digits. -/
theorem exists_chars_of_isDigit {text : String} (h : ∀ byte ∈ utf8 text, IsDigit byte) :
    ∃ chars : List Char, (∀ c ∈ chars, c ∈ digitsOfBothCases) ∧ text = String.ofList chars := by
  let chars := (utf8 text).map fun byte => Char.ofNat byte.toNat
  have hchars : ∀ c ∈ chars, c ∈ digitsOfBothCases := by
    intro c hc
    obtain ⟨byte, hbyte, rfl⟩ := List.mem_map.1 hc
    obtain ⟨d, hd, rfl⟩ := List.mem_map.1 (h byte hbyte)
    rwa [charOfNat_asciiByte (digitsOfBothCases_ascii d hd)]
  -- The characters have the bytes of the text.
  have hbytes : chars.map asciiByte = utf8 text := by
    rw [List.map_map]
    refine List.map_id'' (fun byte => ?_) _
    rw [Function.comp_apply, asciiByte, toNat_charOfNat byte.toNat_lt, UInt8.ofNat_toNat]
  refine ⟨chars, hchars, utf8_injective ?_⟩
  rw [utf8_of_ascii fun c hc => digitsOfBothCases_ascii c (hchars c hc), hbytes]

/-- The characters of a text in lower case. -/
theorem toList_toLower (text : String) : text.toLower.toList = text.toList.map Char.toLower :=
  String.toList_map

/-- A text of an even number of digits is read as the bytes that it spells. -/
theorem decode_of_digits {text : String} (heven : (utf8 text).length % 2 = 0)
    (hdigits : ∀ byte ∈ utf8 text, IsDigit byte) :
    ∃ bytes, decode text = .ok bytes ∧ text.toLower = encode bytes := by
  have hfind : (utf8 text).zipIdx.find? (fun entry => (digitValue? entry.1).isNone) = none :=
    find?_zipIdx_eq_none_iff.2 fun byte hbyte => (digitValue?_isSome_iff byte).2 (hdigits byte hbyte)
  obtain ⟨chars, hchars, rfl⟩ := exists_chars_of_isDigit hdigits
  have hutf8 := utf8_of_ascii fun c hc => digitsOfBothCases_ascii c (hchars c hc)
  refine ⟨pairsAfter [] (utf8 (String.ofList chars)), ?_, ?_⟩
  · rw [decode, if_neg (by omega), hfind]
  · rw [hutf8, List.length_map] at heven
    rw [← String.toList_inj, hutf8, toList_encode_pairsAfter heven hchars, toList_toLower,
      String.toList_ofList]

/-- A text that in lower case is what bytes are written as consists of an even number of digits. -/
theorem digits_of_toLower_eq {text : String} {bytes : Bytes} (h : text.toLower = encode bytes) :
    (utf8 text).length % 2 = 0 ∧ ∀ byte ∈ utf8 text, IsDigit byte := by
  have hlower : text.toList.map Char.toLower = (encode bytes).toList := by
    rw [← h, toList_toLower]
  have hchars : ∀ c ∈ text.toList, c ∈ digitsOfBothCases := by
    intro c hc
    apply mem_digitsOfBothCases
    apply toList_encode_subset bytes
    rw [← hlower]
    exact List.mem_map_of_mem hc
  have hutf8 := utf8_of_ascii fun c hc => digitsOfBothCases_ascii c (hchars c hc)
  rw [String.ofList_toList] at hutf8
  rw [hutf8]
  constructor
  · have hlength := congrArg List.length hlower
    rw [List.length_map, length_toList_encode] at hlength
    rw [List.length_map]
    omega
  · intro byte hbyte
    obtain ⟨c, hc, rfl⟩ := List.mem_map.1 hbyte
    exact List.mem_map_of_mem (hchars c hc)

/-! ## Outcomes -/

/-- What comes of reading a text. -/
inductive Outcome (text : String) : Except Fault Bytes → Prop
  /-- The text has an odd number of bytes. -/
  | oddLength (hodd : (utf8 text).length % 2 = 1) : Outcome text (.error .oddLength)
  /-- The byte at a position is no digit, and all bytes before it are. -/
  | invalidByte {byte : UInt8} {position : Nat} (heven : (utf8 text).length % 2 = 0)
    (hat : (utf8 text)[position]? = some byte) (hnot : ¬ IsDigit byte)
    (hbefore : ∀ earlier ∈ (utf8 text).take position, IsDigit earlier) :
    Outcome text (.error (.invalidByte byte position))
  /-- The text spells bytes. -/
  | spelled {bytes : Bytes} (heven : (utf8 text).length % 2 = 0)
    (hdigits : ∀ byte ∈ utf8 text, IsDigit byte) (hlower : text.toLower = encode bytes) :
    Outcome text (.ok bytes)

/-- The number of bytes is looked at first, and then the bytes in order. -/
theorem decode_outcome (text : String) : Outcome text (decode text) := by
  by_cases hodd : (utf8 text).length % 2 = 1
  · have hread : decode text = .error .oddLength := if_pos hodd
    rw [hread]
    exact .oddLength hodd
  · have heven : (utf8 text).length % 2 = 0 := by omega
    cases hfind : (utf8 text).zipIdx.find? fun entry => (digitValue? entry.1).isNone with
    | none =>
      have hdigits : ∀ byte ∈ utf8 text, IsDigit byte := fun byte hbyte =>
        (digitValue?_isSome_iff byte).1 (find?_zipIdx_eq_none_iff.1 hfind byte hbyte)
      obtain ⟨bytes, hread, hlower⟩ := decode_of_digits heven hdigits
      rw [hread]
      exact .spelled heven hdigits hlower
    | some entry =>
      obtain ⟨byte, position⟩ := entry
      have hread : decode text = .error (.invalidByte byte position) := by
        rw [decode, if_neg hodd, hfind]
      obtain ⟨hat, hnone, hbefore⟩ := find?_zipIdx_eq_some hfind
      rw [hread]
      refine .invalidByte heven hat ?_ ?_
      · rw [← digitValue?_isSome_iff, Bool.not_eq_true, Option.isSome_eq_false_iff]
        exact hnone
      · intro earlier hearlier
        exact (digitValue?_isSome_iff earlier).1 (hbefore earlier hearlier)

/-- The texts that are read as some bytes are those that in lower case are what the bytes are
written as. -/
theorem decode_eq_ok_iff {text : String} {bytes : Bytes} :
    decode text = .ok bytes ↔ text.toLower = encode bytes := by
  constructor
  · intro h
    have houtcome := decode_outcome text
    rw [h] at houtcome
    cases houtcome with
    | spelled _ _ hlower => exact hlower
  · intro h
    obtain ⟨heven, hdigits⟩ := digits_of_toLower_eq h
    obtain ⟨bytes', hread, hlower⟩ := decode_of_digits heven hdigits
    rw [hread, encode_injective (hlower.symm.trans h)]

/-- The fault is the odd number of bytes exactly if their number is odd. -/
theorem decode_eq_oddLength_iff {text : String} :
    decode text = .error .oddLength ↔ (utf8 text).length % 2 = 1 := by
  constructor
  · intro h
    have houtcome := decode_outcome text
    rw [h] at houtcome
    cases houtcome with
    | oddLength hodd => exact hodd
  · intro hodd
    exact if_pos hodd

/-- The byte that a fault names is the first that is no digit. -/
theorem first_of_decode_eq_invalidByte {text : String} {byte : UInt8} {position : Nat}
    (h : decode text = .error (.invalidByte byte position)) :
    (utf8 text)[position]? = some byte ∧ ¬ IsDigit byte ∧
      ∀ earlier ∈ (utf8 text).take position, IsDigit earlier := by
  have houtcome := decode_outcome text
  rw [h] at houtcome
  cases houtcome with
  | invalidByte _ hat hnot hbefore => exact ⟨hat, hnot, hbefore⟩

/-- A fault names a byte exactly if the number of bytes is even and some byte is no digit. -/
theorem exists_decode_eq_invalidByte_iff {text : String} :
    (∃ byte position, decode text = .error (.invalidByte byte position)) ↔
      (utf8 text).length % 2 = 0 ∧ ∃ byte ∈ utf8 text, ¬ IsDigit byte := by
  constructor
  · rintro ⟨byte, position, h⟩
    have houtcome := decode_outcome text
    rw [h] at houtcome
    cases houtcome with
    | invalidByte heven hat hnot _ => exact ⟨heven, byte, List.mem_of_getElem? hat, hnot⟩
  · rintro ⟨heven, byte, hbyte, hnot⟩
    have houtcome := decode_outcome text
    generalize decode text = read at houtcome
    cases houtcome with
    | oddLength hodd => omega
    | invalidByte => exact ⟨_, _, rfl⟩
    | spelled _ hdigits _ => exact absurd (hdigits byte hbyte) hnot

/-- A text is read exactly if it has an even number of bytes, all of them digits. -/
theorem exists_decode_eq_ok_iff {text : String} :
    (∃ bytes, decode text = .ok bytes) ↔
      (utf8 text).length % 2 = 0 ∧ ∀ byte ∈ utf8 text, IsDigit byte := by
  constructor
  · rintro ⟨bytes, h⟩
    exact digits_of_toLower_eq (decode_eq_ok_iff.1 h)
  · rintro ⟨heven, hdigits⟩
    obtain ⟨bytes, hread, -⟩ := decode_of_digits heven hdigits
    exact ⟨bytes, hread⟩

end UtxoScript.Text.Hex
