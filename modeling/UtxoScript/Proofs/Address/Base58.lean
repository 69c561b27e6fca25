import Mathlib.Data.List.GetD
import UtxoScript.Base58
import UtxoScript.Proofs.Bytes
import UtxoScript.Proofs.List
import UtxoScript.Proofs.Text.Utf8

/-!
# Base 58, there and back

A text in base 58 is the spelling of digits below 58 (`decode_eq_ok_iff_spelling`), and between
those digits and bytes there is the change of base, which can be undone in either direction. So the
text in base 58 that is read as some bytes is the one that they are written as: this is the main
statement, `decode_eq_ok_iff`.
-/

namespace UtxoScript.Base58

open Numeral

/-! ## Digits -/

/-- There are fifty-eight digits. -/
theorem length_alphabet : alphabet.length = 58 := by decide

/-- The byte of the digit of a value. -/
def digitByte (n : Nat) : UInt8 := Text.asciiByte (digitChar n)

/-- Digits are ASCII characters. -/
theorem digitChar_ascii : ∀ n < 58, (digitChar n).toNat < 0x80 := by decide +kernel

/-- A digit has the value that it is the digit of. -/
theorem digitValue?_digitByte : ∀ n < 58, digitValue? (digitByte n) = some n := by decide +kernel

/-- A byte that has a value is the digit of the value. -/
theorem digitValue?_eq_some {byte : UInt8} {n : Nat} (h : digitValue? byte = some n) :
    n < 58 ∧ byte = digitByte n := by
  obtain ⟨hlt, heq, -⟩ := List.findIdx?_eq_some_iff_getElem.1 h
  have hchar : digitChar n = Char.ofNat byte.toNat := by
    unfold digitChar
    rw [List.getD_eq_getElem _ _ hlt]
    exact eq_of_beq heq
  refine ⟨length_alphabet ▸ hlt, ?_⟩
  unfold digitByte Text.asciiByte
  rw [hchar, Text.toNat_charOfNat byte.toNat_lt, UInt8.ofNat_toNat]

/-- The text of digits. -/
def spelling (ds : List Nat) : String := String.ofList (ds.map digitChar)

/-- The bytes of the text of digits. -/
theorem utf8_spelling {ds : List Nat} (hlt : ∀ d ∈ ds, d < 58) :
    Text.utf8 (spelling ds) = ds.map digitByte := by
  have hascii : ∀ c ∈ ds.map digitChar, c.toNat < 0x80 := by
    intro c hc
    obtain ⟨d, hd, rfl⟩ := List.mem_map.1 hc
    exact digitChar_ascii d (hlt d hd)
  unfold spelling
  rw [Text.utf8_of_ascii hascii, List.map_map]
  rfl

/-- The values of the bytes of digits. -/
theorem filterMap_digitValue? {ds : List Nat} (hlt : ∀ d ∈ ds, d < 58) :
    (ds.map digitByte).filterMap digitValue? = ds := by
  induction ds with
  | nil => rfl
  | cons d rest ih =>
    rw [List.forall_mem_cons] at hlt
    have hd : digitValue? (digitByte d) = some d := digitValue?_digitByte d hlt.1
    rw [List.map_cons, List.filterMap_cons_some hd, ih hlt.2]

/-- Bytes that all have values are those of digits. -/
theorem exists_digits {bytes : Bytes} (h : ∀ byte ∈ bytes, (digitValue? byte).isSome) :
    ∃ ds : List Nat, (∀ d ∈ ds, d < 58) ∧ bytes = ds.map digitByte := by
  induction bytes with
  | nil => exact ⟨[], List.forall_mem_nil _, rfl⟩
  | cons byte rest ih =>
    rw [List.forall_mem_cons] at h
    obtain ⟨d, hd⟩ := Option.isSome_iff_exists.1 h.1
    obtain ⟨hlt, hbyte⟩ := digitValue?_eq_some hd
    obtain ⟨ds, hds, hrest⟩ := ih h.2
    refine ⟨d :: ds, List.forall_mem_cons.2 ⟨hlt, hds⟩, ?_⟩
    rw [hbyte, hrest, List.map_cons]

/-! ## Reading -/

/-- A text is read if it spells digits, and what is read is their number in bytes. -/
theorem decode_eq_ok_iff_spelling {text : String} {bytes : Bytes} :
    decode text = .ok bytes ↔
      ∃ ds : List Nat, (∀ d ∈ ds, d < 58) ∧ text = spelling ds ∧
        bytes = (rebase 58 256 ds).map UInt8.ofNat := by
  constructor
  · intro h
    unfold decode at h
    dsimp only at h
    split at h
    · contradiction
    · next hfind =>
      -- All bytes are digits, so the text has no characters but theirs.
      obtain ⟨ds, hlt, hutf8⟩ := exists_digits (find?_zipIdx_eq_none_iff.1 hfind)
      rw [hutf8, filterMap_digitValue? hlt] at h
      refine ⟨ds, hlt, Text.utf8_injective ?_, (Except.ok.inj h).symm⟩
      rw [hutf8, utf8_spelling hlt]
  · rintro ⟨ds, hlt, rfl, rfl⟩
    have hfind : ((Text.utf8 (spelling ds)).zipIdx.find?
        fun entry => (digitValue? entry.1).isNone) = none := by
      rw [find?_zipIdx_eq_none_iff, utf8_spelling hlt]
      intro byte hbyte
      obtain ⟨d, hd, rfl⟩ := List.mem_map.1 hbyte
      rw [digitValue?_digitByte d (hlt d hd)]
      rfl
    unfold decode
    dsimp only
    rw [hfind, utf8_spelling hlt, filterMap_digitValue? hlt]

/-! ## Round trip -/

/-- The text that is read as some bytes is the one that they are written as. -/
theorem decode_eq_ok_iff {text : String} {bytes : Bytes} :
    decode text = .ok bytes ↔ text = encode bytes := by
  rw [decode_eq_ok_iff_spelling]
  constructor
  · rintro ⟨ds, hlt, rfl, rfl⟩
    have hback : rebase 256 58 (((rebase 58 256 ds).map UInt8.ofNat).map UInt8.toNat) = ds := by
      rw [Bytes.map_toNat_map_ofNat (rebase_lt (by decide) ds)]
      exact rebase_rebase (by decide) (by decide) hlt
    unfold encode
    rw [hback]
    rfl
  · intro htext
    have hlt := Bytes.lt_of_mem_map_toNat bytes
    refine ⟨rebase 256 58 (bytes.map UInt8.toNat), rebase_lt (by decide) _, htext, ?_⟩
    rw [rebase_rebase (by decide) (by decide) hlt, Bytes.map_ofNat_map_toNat]

/-- Every leading zero is kept. -/
example : encode [0, 0, 1] = "112" := by decide +kernel

end UtxoScript.Base58
