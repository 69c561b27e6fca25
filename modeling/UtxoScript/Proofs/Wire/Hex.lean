import UtxoScript.Proofs.Text.Hex.Reading
import UtxoScript.Proofs.Wire.Locality

/-!
# Scripts in hexadecimal

Reading a script written in hexadecimal fails for the reasons for which the text is no hexadecimal,
and for no other. A text that is read has the same script in any case of its letters, and writing
the script gives the text back in lower case if the bytes that it spells are what some decoded
script is written as. A decoded script is read back from its own text. These are the parts of the
main statement, `decodeHex_front`.
-/

namespace UtxoScript.Wire

open Text (utf8)

/-- A text has a fault as a script if it has the fault as hexadecimal. -/
theorem decodeHex_eq_error_iff {text : String} {fault : Text.Hex.Fault} :
    decodeHex text = .error fault ↔ Text.Hex.decode text = .error fault := by
  unfold decodeHex
  cases Text.Hex.decode text with
  | error => simp [Except.map]
  | ok => simp [Except.map]

/-- The script of a text is that of the bytes that the text spells. -/
theorem decodeHex_eq_ok_iff {text : String} {decoded : Decoded} :
    decodeHex text = .ok decoded ↔
      ∃ bytes, Text.Hex.decode text = .ok bytes ∧ decode bytes = decoded := by
  unfold decodeHex
  cases Text.Hex.decode text with
  | error => simp [Except.map]
  | ok => simp [Except.map]

/-- Bytes are written again as they were read if they are what some decoded script is written as. -/
theorem encode_decode_eq_self_iff_exists {bytes : Bytes} :
    encode (decode bytes).script = bytes ↔ ∃ input, encode (decode input).script = bytes := by
  constructor
  · intro h
    exact ⟨bytes, h⟩
  · rintro ⟨input, rfl⟩
    rw [script_decode_encode (canonical_of_mem_decode input)]

/-- **Hexadecimal in front of the wire.** A text of an odd number of bytes is refused for that.
Otherwise it is refused if one of its bytes is no hexadecimal digit, and the first of them is named
with its position. Every other text is read: it spells bytes, which decide the script, and the case
of its letters does not count. Written again, the script is the text in lower case exactly if the
bytes are what some decoded script is written as. A decoded script that is written is read back, and
nothing is reported. -/
theorem decodeHex_front (text : String) :
    (decodeHex text = .error .oddLength ↔ (utf8 text).length % 2 = 1) ∧
    ((∃ byte position, decodeHex text = .error (.invalidByte byte position)) ↔
      (utf8 text).length % 2 = 0 ∧ ∃ byte ∈ utf8 text, ¬ Text.Hex.IsDigit byte) ∧
    (∀ byte position, decodeHex text = .error (.invalidByte byte position) →
      (utf8 text)[position]? = some byte ∧ ¬ Text.Hex.IsDigit byte ∧
        ∀ earlier ∈ (utf8 text).take position, Text.Hex.IsDigit earlier) ∧
    ((∃ decoded, decodeHex text = .ok decoded) ↔
      (utf8 text).length % 2 = 0 ∧ ∀ byte ∈ utf8 text, Text.Hex.IsDigit byte) ∧
    (∀ decoded, decodeHex text = .ok decoded →
      (∀ other : String, other.toLower = text.toLower → decodeHex other = .ok decoded) ∧
      ∃ bytes, text.toLower = Text.Hex.encode bytes ∧ decoded = decode bytes ∧
        (encodeHex decoded.script = text.toLower ↔
          ∃ input, encode (decode input).script = bytes)) ∧
    ∀ input, decodeHex (encodeHex (decode input).script) = .ok ⟨(decode input).script, none⟩ := by
  simp only [decodeHex_eq_error_iff]
  refine ⟨Text.Hex.decode_eq_oddLength_iff, Text.Hex.exists_decode_eq_invalidByte_iff,
    fun _ _ => Text.Hex.first_of_decode_eq_invalidByte, ?_, ?_, ?_⟩
  · rw [← Text.Hex.exists_decode_eq_ok_iff]
    constructor
    · rintro ⟨decoded, h⟩
      obtain ⟨bytes, hread, -⟩ := decodeHex_eq_ok_iff.1 h
      exact ⟨bytes, hread⟩
    · rintro ⟨bytes, hread⟩
      exact ⟨decode bytes, decodeHex_eq_ok_iff.2 ⟨bytes, hread, rfl⟩⟩
  · intro decoded h
    obtain ⟨bytes, hread, rfl⟩ := decodeHex_eq_ok_iff.1 h
    have hlower := Text.Hex.decode_eq_ok_iff.1 hread
    refine ⟨?_, bytes, hlower, rfl, ?_⟩
    · intro other hother
      exact decodeHex_eq_ok_iff.2
        ⟨bytes, Text.Hex.decode_eq_ok_iff.2 (hother.trans hlower), rfl⟩
    · rw [hlower, encodeHex, Text.Hex.encode_injective.eq_iff]
      exact encode_decode_eq_self_iff_exists
  · intro input
    refine decodeHex_eq_ok_iff.2 ⟨encode (decode input).script, Text.Hex.decode_encode _, ?_⟩
    exact decode_encode (canonical_of_mem_decode input)

/-- Capital letters are read like small ones, and a fault is told by its place among the bytes: the
second character of `aé0` has two. -/
theorem decodeHex_front_capitals :
    (decodeHex "76A9" = .ok ⟨[.op .dup, .op .hash160], none⟩ ∧ "76a9".toLower = "76A9".toLower ∧
      decodeHex "76a9" = .ok ⟨[.op .dup, .op .hash160], none⟩) ∧
    decodeHex "aé0" = .error (.invalidByte 0xc3 1) ∧ (utf8 "aé0")[1]? = some 0xc3 ∧
      ¬ Text.Hex.IsDigit 0xc3 ∧ ∀ earlier ∈ (utf8 "aé0").take 1, Text.Hex.IsDigit earlier := by
  have hcanonical : ∀ element ∈ ([.op .dup, .op .hash160] : Script), element.Canonical := by
    simp [Element.Canonical]
  have hread : decodeHex "76A9" = .ok ⟨[.op .dup, .op .hash160], none⟩ :=
    decodeHex_eq_ok_iff.2 ⟨[0x76, 0xa9], by decide +kernel, decode_encode hcanonical⟩
  have hlower : "76a9".toLower = "76A9".toLower := by
    rw [← String.toList_inj, Text.Hex.toList_toLower, Text.Hex.toList_toLower]
    decide
  have hfault : decodeHex "aé0" = .error (.invalidByte 0xc3 1) :=
    decodeHex_eq_error_iff.2 (by decide +kernel)
  exact ⟨⟨hread, hlower, ((decodeHex_front "76A9").2.2.2.2.1 _ hread).1 "76a9" hlower⟩, hfault,
    (decodeHex_front "aé0").2.2.1 0xc3 1 hfault⟩

end UtxoScript.Wire
