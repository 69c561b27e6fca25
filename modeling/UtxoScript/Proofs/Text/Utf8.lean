import Mathlib.Data.List.Basic
import UtxoScript.Text.Utf8

/-!
# Texts and their bytes

A text is determined by its bytes (`utf8_injective`), and the bytes of a text of ASCII characters
are the numbers of the characters (`utf8_of_ascii`).
-/

namespace UtxoScript.Text

/-- Different texts have different bytes. -/
theorem utf8_injective {s t : String} (h : utf8 s = utf8 t) : s = t := by
  have hbytes : s.toByteArray = t.toByteArray := by
    rw [← String.utf8Encode_toList, ← String.utf8Encode_toList]
    exact congrArg List.toByteArray h
  exact String.toByteArray_inj.1 hbytes

/-- The byte of an ASCII character. -/
def asciiByte (c : Char) : UInt8 := UInt8.ofNat c.toNat

/-- An ASCII character is one byte. -/
theorem utf8EncodeChar_of_ascii {c : Char} (h : c.toNat < 0x80) :
    String.utf8EncodeChar c = [asciiByte c] := by
  unfold String.utf8EncodeChar
  exact if_pos (Nat.le_of_lt_succ h)

/-- The character of a byte has the number of the byte. -/
theorem toNat_charOfNat {n : Nat} (h : n < 0x100) : (Char.ofNat n).toNat = n := by
  have hvalid : n.isValidChar := Or.inl (by omega)
  unfold Char.ofNat
  rw [dif_pos hvalid]
  rfl

/-- The bytes of ASCII characters are one for each. -/
theorem utf8_of_ascii {chars : List Char} (h : ∀ c ∈ chars, c.toNat < 0x80) :
    utf8 (String.ofList chars) = chars.map asciiByte := by
  unfold utf8
  rw [String.toList_ofList, List.map_eq_flatMap]
  exact List.flatMap_congr fun c hc => utf8EncodeChar_of_ascii (h c hc)

end UtxoScript.Text
