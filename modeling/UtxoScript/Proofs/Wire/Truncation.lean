import UtxoScript.Proofs.Text.Decimal
import UtxoScript.Proofs.Wire.Locality

/-!
# What the reports of reading say

A report that is made while an input is read is true of the input: `reports_of_truncation` says that
its offset and its numbers are those of the place where the input ends, and that the script ends in
the push that was cut there. Reports are worded so that no two truncations are reported alike
(`message_injective`), so the text alone tells which it was.
-/

namespace UtxoScript

/-! ## Wording -/

namespace Truncation

/-- The two kinds of truncation are never reported alike. -/
theorem message_payload_ne (offset wanted remaining offset' : Nat) :
    (payload offset wanted remaining).message ≠ (lengthField offset').message := by
  intro h
  -- The reports differ in the eleventh letter.
  have hletter := congrArg (fun text => text.toList[10]?) h
  unfold message at hletter
  simp at hletter

/-- Different truncations are reported differently. -/
theorem message_injective {t t' : Truncation} (h : t.message = t'.message) : t = t' := by
  cases t with
  | payload offset wanted remaining =>
    cases t' with
    | payload offset' wanted' remaining' =>
      unfold message at h
      simp only [String.append_assoc, String.append_right_inj] at h
      obtain ⟨hoffset, hrest⟩ := Text.toString_append_inj rfl h
      obtain ⟨hwanted, hrest⟩ := Text.toString_append_inj rfl hrest
      rw [String.append_left_inj, Text.toString_inj] at hrest
      rw [hoffset, hwanted, hrest]
    | lengthField offset' => exact absurd h (message_payload_ne _ _ _ _)
  | lengthField offset =>
    cases t' with
    | payload offset' wanted' remaining' => exact absurd h.symm (message_payload_ne _ _ _ _)
    | lengthField offset' =>
      unfold message at h
      rw [String.append_right_inj, Text.toString_inj] at h
      rw [h]

end Truncation

/-- A truncation is reported exactly if it happened. -/
theorem Decoded.message_mem_log_iff {decoded : Decoded} {t : Truncation} :
    t.message ∈ decoded.log ↔ decoded.truncation = some t := by
  unfold log
  rw [Option.mem_toList, Option.map_eq_some_iff]
  constructor
  · rintro ⟨t', ht', hmessage⟩
    rw [ht', Truncation.message_injective hmessage]
  · intro h
    exact ⟨t, h, rfl⟩

namespace Wire

/-! ## What is reported -/

/-- What a truncation says of an input is so, and the script that was read ends in the push that was
cut: in what there is of the payload, or in the empty push where the length field is cut. -/
def Reports (bytes : Bytes) (script : Script) : Truncation → Prop
  | .payload offset wanted remaining =>
    remaining < wanted ∧ offset + remaining = bytes.length ∧
      script.getLast? = some (.data (bytes.drop offset))
  | .lengthField offset =>
    (∃ op width, lengthWidth? op = some width ∧ 0 < offset ∧ bytes[offset - 1]? = some op.byte ∧
        offset ≤ bytes.length ∧ bytes.length - offset < width) ∧
      script.getLast? = some (.data [])

/-- What is so of the end of an input is so of the whole, told from the start of the whole. -/
theorem Reports.behind {bytes : Bytes} {script : Script} {t : Truncation}
    (h : Reports bytes script t) (front : Bytes) (element : Element) :
    Reports (front ++ bytes) (element :: script) (t.behind front.length) := by
  have hlast {last : Element} (h : script.getLast? = some last) :
      (element :: script).getLast? = some last := by
    rw [List.getLast?_cons, h]
    rfl
  cases t with
  | payload offset wanted remaining =>
    obtain ⟨hcut, hend, hpush⟩ := h
    refine ⟨hcut, ?_, ?_⟩
    · rw [List.length_append]
      omega
    · rw [Nat.add_comm offset, List.drop_length_add_append]
      exact hlast hpush
  | lengthField offset =>
    obtain ⟨⟨op, width, hop, hpos, hbyte, hle, hcut⟩, hpush⟩ := h
    refine ⟨⟨op, width, hop, by omega, ?_, ?_, ?_⟩, hlast hpush⟩
    · have hindex : offset + front.length - 1 - front.length = offset - 1 := by omega
      rw [List.getElem?_append_right (by omega), hindex, hbyte]
    · rw [List.length_append]
      omega
    · rw [List.length_append]
      omega

/-- The report that is made of an input is true of it. -/
theorem reports_of_truncation {bytes : Bytes} {t : Truncation}
    (h : (decode bytes).truncation = some t) : Reports bytes (decode bytes).script t := by
  induction bytes using input_induction generalizing t with
  | empty =>
    rw [decode_nil] at h
    contradiction
  | @single byte element rest hsingle ih =>
    rw [decode_single hsingle] at h ⊢
    obtain ⟨t', ht', rfl⟩ := Option.map_eq_some_iff.1 h
    exact (ih ht').behind [byte] element
  | @push width header payload rest hheader ih =>
    rw [decode_push hheader] at h ⊢
    obtain ⟨t', ht', rfl⟩ := Option.map_eq_some_iff.1 h
    -- The header and the payload are the bytes in front of the rest.
    rw [← List.append_assoc, ← List.length_append]
    exact (ih ht').behind (header ++ payload) (.data payload)
  | @cutPayload width wanted header payload hheader hcut =>
    rw [decode_cutPayload hheader hcut] at h ⊢
    cases h
    exact ⟨hcut, by rw [List.length_append], by rw [List.drop_left]; rfl⟩
  | @cutLength op width field hop hcut =>
    rw [decode_cutLength hop hcut] at h ⊢
    cases h
    refine ⟨⟨op, width, hop, Nat.one_pos, rfl, ?_, ?_⟩, rfl⟩
    · exact Nat.succ_le_succ (Nat.zero_le _)
    · rwa [List.length_cons, Nat.add_sub_cancel]

end Wire

end UtxoScript
