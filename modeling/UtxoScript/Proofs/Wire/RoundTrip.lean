import UtxoScript.Proofs.Wire.Front

/-!
# Reading what was written

Canonical elements, and only those, are read back from their wire form. A canonical element stands
on the wire as an item that is all there (`encodeElement_cases`), so decoding takes a canonical
script off the front of an input and goes on with what follows (`script_decode_encode_append`).
Conversely every element that decoding gives is canonical (`canonical_of_mem_decode`), so that
nothing else can be read back.
-/

namespace UtxoScript

/-- The bytes of the small integers are `0x51` to `0x60`. -/
theorem SmallInt.exists_toWire_iff {byte : UInt8} :
    (∃ n : SmallInt, n.toWire = byte) ↔ 0x51 ≤ byte.toNat ∧ byte.toNat ≤ 0x60 := by
  constructor
  · rintro ⟨n, rfl⟩
    have hone : 1 ≤ n.val.toNat := n.toNat_bounds.1
    have hle : n.val.toNat ≤ 16 := n.toNat_bounds.2
    rw [n.toNat_toWire]
    omega
  · rintro ⟨hge, hle⟩
    have hsub : (byte - 0x50).toNat = byte.toNat - 0x50 :=
      UInt8.toNat_sub_of_le _ _ (UInt8.le_iff_toNat_le.2 (by change 0x50 ≤ byte.toNat; omega))
    refine ⟨⟨byte - 0x50, ?_, ?_⟩, ?_⟩
    · rw [UInt8.le_iff_toNat_le, hsub]
      change 1 ≤ byte.toNat - 0x50
      omega
    · rw [UInt8.le_iff_toNat_le, hsub]
      change byte.toNat - 0x50 ≤ 16
      omega
    · rw [toWire, UInt8.add_comm]
      exact UInt8.sub_add_cancel byte 0x50

namespace Wire

/-- The bytes that stand for themselves are those that no push, small integer, or opcode has. -/
theorem canonical_raw_iff {byte : UInt8} :
    (Element.raw byte).Canonical ↔
      ¬ byte.toNat ≤ 0x4b ∧ ¬ (0x51 ≤ byte.toNat ∧ byte.toNat ≤ 0x60) ∧
        ¬ ∃ op : Opcode, op.byte = byte := by
  rw [← SmallInt.exists_toWire_iff, not_exists, not_exists, Nat.not_le]
  rfl

/-- The width of the length field in the header of a push of `length` bytes. -/
def headerWidth (length : Nat) : Nat :=
  if length ≤ maxDirectPush then 0
  else if length ≤ 0xff then 1
  else if length ≤ 0xffff then 2
  else 4

/-- A push of fewer than `2 ^ 32` bytes has the header that its length needs. -/
theorem pushHeader_header {length : Nat} (h : length < UInt32.size) :
    Header (headerWidth length) length (pushHeader length) := by
  have hsize : UInt32.size = 256 ^ 4 := rfl
  unfold headerWidth pushHeader
  split_ifs with h0 h1 h2
  · exact .direct_ofNat h0
  · exact .sized_ofNatLE rfl (by omega)
  · exact .sized_ofNatLE rfl (by omega)
  · exact .sized_ofNatLE rfl (by omega)

/-- A canonical element is written as an item that is all there: a single byte, or a header with
the whole payload. -/
theorem encodeElement_cases {element : Element} (h : element.Canonical) :
    (∃ byte, Single byte element ∧ encodeElement element = [byte]) ∨
      ∃ width header payload, Header width payload.length header ∧ element = .data payload ∧
        encodeElement element = header ++ payload := by
  cases element with
  | data payload => exact .inr ⟨_, _, payload, pushHeader_header h, rfl, rfl⟩
  | number n => exact .inl ⟨n.toWire, ⟨h, rfl, rfl⟩, rfl⟩
  | op opcode => exact .inl ⟨opcode.byte, ⟨h, rfl, rfl⟩, rfl⟩
  | raw byte => exact .inl ⟨byte, ⟨h, rfl, rfl⟩, rfl⟩

/-- A canonical element is read off the front of an input that begins with its wire form. -/
theorem script_decode_encodeElement_append {element : Element} (h : element.Canonical)
    (bytes : Bytes) :
    (decode (encodeElement element ++ bytes)).script = element :: (decode bytes).script := by
  obtain ⟨byte, hsingle, henc⟩ | ⟨width, header, payload, hheader, rfl, henc⟩ :=
    encodeElement_cases h
  · rw [henc]
    exact script_decode_single hsingle bytes
  · rw [henc, List.append_assoc]
    exact script_decode_push hheader bytes

/-- A canonical script is read off the front of an input that begins with its wire form. -/
theorem script_decode_encode_append {script : Script}
    (h : ∀ element ∈ script, element.Canonical) (bytes : Bytes) :
    (decode (encode script ++ bytes)).script = script ++ (decode bytes).script := by
  induction script with
  | nil => rfl
  | cons element rest ih =>
    have hrest : ∀ e ∈ rest, e.Canonical := fun e he => h e (List.mem_cons_of_mem _ he)
    rw [encode, List.flatMap_cons, List.append_assoc,
      script_decode_encodeElement_append (h element List.mem_cons_self)]
    exact congrArg (element :: ·) (ih hrest)

/-- Every element that decoding gives is canonical. -/
theorem canonical_of_mem_decode (bytes : Bytes) :
    ∀ element ∈ (decode bytes).script, element.Canonical := by
  induction bytes using input_induction with
  | empty => simp
  | single rest h ih =>
    rw [script_decode_single h, List.forall_mem_cons]
    exact ⟨h.canonical, ih⟩
  | push rest h ih =>
    rw [script_decode_push h, List.forall_mem_cons]
    exact ⟨h.length_lt, ih⟩
  | cutPayload h hcut =>
    rw [script_decode_cutPayload h hcut, List.forall_mem_singleton]
    exact hcut.trans h.length_lt
  | cutLength hop hcut =>
    rw [script_decode_cutLength hop hcut, List.forall_mem_singleton]
    exact (by decide : 0 < UInt32.size)

/-- A canonical script is read back from its wire form. -/
theorem script_decode_encode {script : Script} (h : ∀ element ∈ script, element.Canonical) :
    (decode (encode script)).script = script := by
  have happ := script_decode_encode_append h []
  rwa [List.append_nil, script_decode_nil, List.append_nil] at happ

/-- The scripts that are read back from their wire form are those of canonical elements. Every
script that decoding gives is among them, so decoding what has been read and written again gives
the same script. -/
theorem script_decode_encode_eq_iff :
    (∀ script : Script,
      (decode (encode script)).script = script ↔ ∀ element ∈ script, element.Canonical) ∧
    ∀ bytes : Bytes,
      (∀ element ∈ (decode bytes).script, element.Canonical) ∧
        (decode (encode (decode bytes).script)).script = (decode bytes).script := by
  refine ⟨fun script => ⟨fun h => ?_, script_decode_encode⟩, fun bytes => ⟨?_, ?_⟩⟩
  · rw [← h]
    exact canonical_of_mem_decode _
  · exact canonical_of_mem_decode bytes
  · exact script_decode_encode (canonical_of_mem_decode bytes)

end Wire

end UtxoScript
