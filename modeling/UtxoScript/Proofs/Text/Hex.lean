import UtxoScript.Proofs.List
import UtxoScript.Proofs.Text.Utf8
import UtxoScript.Text.Hex

/-!
# Hexadecimal text, there and back

Bytes written in hexadecimal are read as the same bytes, whatever they are: this is the main
statement, `decode_encode`. So different bytes are never written alike. What is written consists of
sixteen characters (`toList_encode_subset`), two for each byte (`length_toList_encode`).
-/

namespace UtxoScript.Text.Hex

/-! ## Digits -/

/-- The digits of hexadecimal in lower case. -/
def digits : List Char := "0123456789abcdef".toList

/-- What is written for a value below sixteen is a digit. -/
theorem digitChar_mem_digits : ∀ n < 16, Nat.digitChar n ∈ digits := by decide

/-- Digits are ASCII characters. -/
theorem digits_ascii : ∀ c ∈ digits, c.toNat < 0x80 :=
  List.forall_iff_forall_mem.1 (by decide)

/-- A digit is read as the value that it was written for. -/
theorem digitValue?_digitChar :
    ∀ n < 16, digitValue? (asciiByte (Nat.digitChar n)) = some (UInt8.ofNat n) := by
  decide

/-- Every digit is read. -/
theorem digitValue?_isSome : ∀ c ∈ digits, (digitValue? (asciiByte c)).isSome :=
  List.forall_iff_forall_mem.1 (by decide)

/-- The two halves of a byte are below sixteen. -/
theorem halves_lt (byte : UInt8) : byte.toNat / 16 < 16 ∧ byte.toNat % 16 < 16 := by
  have hlt : byte.toNat < 256 := byte.toNat_lt
  omega

/-- A byte is its high half times sixteen and its low half. -/
theorem halves_eq (byte : UInt8) :
    UInt8.ofNat (byte.toNat / 16) * 16 + UInt8.ofNat (byte.toNat % 16) = byte := by
  have hlt : byte.toNat < 256 := byte.toNat_lt
  apply UInt8.toNat_inj.1
  simp only [UInt8.toNat_add, UInt8.toNat_mul, UInt8.toNat_ofNat', UInt8.reduceToNat]
  omega

/-- The two digits of a byte are read as the byte. -/
theorem byteOf_digitChar (byte : UInt8) :
    byteOf (asciiByte (Nat.digitChar (byte.toNat / 16)))
      (asciiByte (Nat.digitChar (byte.toNat % 16))) = byte := by
  obtain ⟨hhigh, hlow⟩ := halves_lt byte
  rw [byteOf, digitValue?_digitChar _ hhigh, digitValue?_digitChar _ hlow]
  exact halves_eq byte

/-! ## Writing -/

/-- The digits of a byte are digits. -/
theorem digitsOf_subset (byte : UInt8) : digitsOf byte ⊆ digits := by
  obtain ⟨hhigh, hlow⟩ := halves_lt byte
  simp [digitsOf, digitChar_mem_digits _ hhigh, digitChar_mem_digits _ hlow]

/-- Nothing but digits is written. -/
theorem toList_encode_subset (bytes : Bytes) : (encode bytes).toList ⊆ digits := by
  rw [encode, String.toList_ofList]
  intro c hc
  obtain ⟨byte, -, hmem⟩ := List.mem_flatMap.1 hc
  exact digitsOf_subset byte hmem

/-- Two digits are written for each byte. -/
theorem length_toList_encode (bytes : Bytes) : (encode bytes).toList.length = 2 * bytes.length := by
  rw [encode, String.toList_ofList]
  induction bytes with
  | nil => rfl
  | cons byte rest ih =>
    rw [List.flatMap_cons, List.length_append, ih, digitsOf, List.length_cons]
    simp only [List.length_cons, List.length_nil]
    omega

/-- The bytes of what is written, one for each digit. -/
theorem utf8_encode (bytes : Bytes) : utf8 (encode bytes) = (encode bytes).toList.map asciiByte := by
  have hascii : ∀ c ∈ (encode bytes).toList, c.toNat < 0x80 := fun c hc =>
    digits_ascii c (toList_encode_subset bytes hc)
  have hbytes := utf8_of_ascii hascii
  rwa [String.ofList_toList] at hbytes

/-! ## Reading what was written -/

/-- Pairs of digits are read as the bytes that they were written for. -/
theorem pairsAfter_encode (bytes : Bytes) :
    pairsAfter [] ((encode bytes).toList.map asciiByte) = bytes := by
  rw [encode, String.toList_ofList]
  induction bytes with
  | nil => rfl
  | cons byte rest ih =>
    rw [List.flatMap_cons, List.map_append, digitsOf, List.map_cons, List.map_cons, List.map_nil,
      List.cons_append, List.cons_append, List.nil_append, pairsAfter, pairsAfter_eq, ih,
      byteOf_digitChar]
    rfl

/-- Bytes in hexadecimal are read as themselves. -/
theorem decode_encode (bytes : Bytes) : decode (encode bytes) = .ok bytes := by
  have heven : ¬ (utf8 (encode bytes)).length % 2 = 1 := by
    rw [utf8_encode, List.length_map, length_toList_encode]
    omega
  have hdigits : (utf8 (encode bytes)).zipIdx.find? (fun entry => (digitValue? entry.1).isNone) =
      none := by
    rw [find?_zipIdx_eq_none_iff, utf8_encode]
    intro byte hbyte
    obtain ⟨c, hc, rfl⟩ := List.mem_map.1 hbyte
    exact digitValue?_isSome c (toList_encode_subset bytes hc)
  rw [decode, if_neg heven, hdigits, utf8_encode, pairsAfter_encode]

/-- Different bytes are written differently. -/
theorem encode_injective : Function.Injective encode := by
  intro bytes bytes' h
  have hread : decode (encode bytes) = decode (encode bytes') := congrArg decode h
  rw [decode_encode, decode_encode] at hread
  exact Except.ok.inj hread

end UtxoScript.Text.Hex
