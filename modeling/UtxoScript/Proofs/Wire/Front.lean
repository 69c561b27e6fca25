import UtxoScript.Proofs.Bytes
import UtxoScript.Wire

/-!
# The front of an input

What an input can begin with: nothing, an element of a single byte, a push that is all there, a push
whose payload is cut off, or a push whose length field is. `front` says that there is no other
case, and each case comes with an equation that says what `decode` makes of it. A property of all
inputs is proved by `input_induction`, which has one case for each of the five.

`Header width length bytes` is what the forms of a push have in common: `bytes` announce a push of
`length` bytes through a length field of `width` bytes, where a direct push has the width zero.
-/

namespace UtxoScript

namespace Opcode

/-- No opcode has a byte that stands for a length. -/
theorem maxDirectPush_lt_byte (op : Opcode) : Wire.maxDirectPush < op.byte.toNat := by
  cases op <;> decide

/-- No opcode has a byte that stands for a small integer. -/
theorem ofWire?_byte (op : Opcode) : SmallInt.ofWire? op.byte = none := by
  cases op <;> rfl

end Opcode

namespace SmallInt

/-- The byte of a small integer as a number. -/
theorem toNat_toWire (n : SmallInt) : n.toWire.toNat = 0x50 + n.val.toNat := by
  have hle : n.val.toNat ≤ 16 := n.toNat_bounds.2
  rw [toWire, UInt8.toNat_add]
  exact Nat.mod_eq_of_lt (by change 0x50 + n.val.toNat < 256; omega)

/-- No small integer has a byte that stands for a length. -/
theorem maxDirectPush_lt_toWire (n : SmallInt) : Wire.maxDirectPush < n.toWire.toNat := by
  rw [n.toNat_toWire, Wire.maxDirectPush]
  omega

end SmallInt

namespace Wire

/-! ## Headers and single bytes -/

/-- `header` announces a push of `length` bytes and has a length field of `width` bytes. A direct
push has no length field. -/
inductive Header : (width length : Nat) → (header : Bytes) → Prop
  /-- The byte is the length itself. -/
  | direct {byte : UInt8} (hbyte : byte.toNat ≤ maxDirectPush) : Header 0 byte.toNat [byte]
  /-- An opcode stands before the length field. -/
  | sized {op : Opcode} {width : Nat} {field : Bytes} (hop : lengthWidth? op = some width)
      (hfield : field.length = width) : Header width (Bytes.toNatLE field) (op.byte :: field)

/-- The element is a single byte on the wire, and one that announces no push. -/
structure Single (byte : UInt8) (element : Element) : Prop where
  /-- Reading can give the element. -/
  canonical : element.Canonical
  /-- It is no push. -/
  isData : element.isData = false
  /-- The byte is all that is written for it. -/
  encodeElement : encodeElement element = [byte]

/-- The opcodes that announce a push, with the widths of their length fields. -/
theorem lengthWidth?_eq_some {op : Opcode} {width : Nat} (h : lengthWidth? op = some width) :
    (op = .pushData1 ∧ width = 1) ∨ (op = .pushData2 ∧ width = 2) ∨
      (op = .pushData4 ∧ width = 4) := by
  unfold lengthWidth? at h
  split at h <;> simp_all

/-- Each width belongs to one opcode. -/
theorem lengthWidth?_inj {op op' : Opcode} {width : Nat} (h : lengthWidth? op = some width)
    (h' : lengthWidth? op' = some width) : op = op' := by
  have hcases := lengthWidth?_eq_some h
  have hcases' := lengthWidth?_eq_some h'
  grind

/-- The opcodes that announce no push are the canonical ones. -/
theorem lengthWidth?_eq_none {op : Opcode} :
    lengthWidth? op = none ↔ (Element.op op).Canonical := by
  unfold lengthWidth? Element.Canonical
  split <;> simp_all

/-- A header is its length field behind one byte. -/
theorem Header.length_header {width length : Nat} {header : Bytes}
    (h : Header width length header) : header.length = width + 1 := by
  cases h with
  | direct => rfl
  | sized hop hfield => rw [List.length_cons, hfield]

/-- The widths of length fields, with the lengths that they hold. -/
theorem Header.bounds {width length : Nat} {header : Bytes} (h : Header width length header) :
    (width = 0 ∧ length ≤ maxDirectPush) ∨ (width = 1 ∧ length ≤ 0xff) ∨
      (width = 2 ∧ length ≤ 0xffff) ∨ (width = 4 ∧ length < UInt32.size) := by
  have hsize : UInt32.size = 256 ^ 4 := rfl
  cases h with
  | direct hbyte => exact .inl ⟨rfl, hbyte⟩
  | sized hop hfield =>
    rename_i op field
    have hlt := Bytes.toNatLE_lt field
    rw [hfield] at hlt
    rcases lengthWidth?_eq_some hop with ⟨-, rfl⟩ | ⟨-, rfl⟩ | ⟨-, rfl⟩ <;> omega

/-- Four bytes hold every length that a header announces. -/
theorem Header.length_lt {width length : Nat} {header : Bytes} (h : Header width length header) :
    length < UInt32.size := by
  have hsize : UInt32.size = 256 ^ 4 := rfl
  have hbounds := h.bounds
  rw [maxDirectPush] at hbounds
  omega

/-- A length that is small enough may be the header itself. -/
theorem Header.direct_ofNat {length : Nat} (h : length ≤ maxDirectPush) :
    Header 0 length [UInt8.ofNat length] := by
  have hbyte : (UInt8.ofNat length).toNat = length := by
    rw [UInt8.toNat_ofNat']
    rw [maxDirectPush] at h
    omega
  have hle : (UInt8.ofNat length).toNat ≤ maxDirectPush := by rwa [hbyte]
  have hheader := Header.direct hle
  rwa [hbyte] at hheader

/-- A length that fits in a length field may be announced by it. -/
theorem Header.sized_ofNatLE {op : Opcode} {width length : Nat} (hop : lengthWidth? op = some width)
    (h : length < 256 ^ width) : Header width length (op.byte :: Bytes.ofNatLE width length) := by
  have hheader := Header.sized hop (Bytes.length_ofNatLE width length)
  rwa [Bytes.toNatLE_ofNatLE h] at hheader

/-- Width and length determine a header. -/
theorem Header.unique {width length width' length' : Nat} {header header' : Bytes}
    (h : Header width length header) (h' : Header width' length' header')
    (hwidth : width = width') (hlength : length = length') : header = header' := by
  cases h with
  | direct hbyte =>
    cases h' with
    | direct hbyte' => rw [UInt8.toNat_inj.1 hlength]
    | sized hop' hfield' => have := lengthWidth?_eq_some hop'; omega
  | sized hop hfield =>
    rename_i op field
    cases h' with
    | direct hbyte' => have := lengthWidth?_eq_some hop; omega
    | sized hop' hfield' =>
      rename_i op' field'
      subst hwidth
      have hopEq : op = op' := lengthWidth?_inj hop hop'
      have hfieldEq : field = field' := by
        rw [← Bytes.ofNatLE_toNatLE field, ← Bytes.ofNatLE_toNatLE field', hfield, hfield',
          hlength]
      rw [hopEq, hfieldEq]

/-- A header announces one length. -/
theorem Header.length_unique {width length width' length' : Nat} {header header' : Bytes}
    (h : Header width length header) (h' : Header width' length' header')
    (heq : header = header') : length = length' := by
  cases h with
  | direct hbyte =>
    cases h' with
    | direct hbyte' => rw [(List.cons.inj heq).1]
    | sized hop' hfield' =>
      rename_i byte op' field'
      have hlt := op'.maxDirectPush_lt_byte
      rw [← (List.cons.inj heq).1] at hlt
      omega
  | sized hop hfield =>
    rename_i op field
    cases h' with
    | direct hbyte' =>
      have hlt := op.maxDirectPush_lt_byte
      rw [(List.cons.inj heq).1] at hlt
      omega
    | sized hop' hfield' => rw [(List.cons.inj heq).2]

/-! ## Reading the front -/

/-- A byte that stands for a length is read as that push. -/
theorem readItem_direct {byte : UInt8} (hbyte : byte.toNat ≤ maxDirectPush) (rest : Bytes) :
    readItem byte rest = takePush byte.toNat rest := by
  rw [readItem, if_pos hbyte]

/-- An opcode that announces a push is read with its length field. -/
theorem readItem_sized {op : Opcode} {width : Nat} (hop : lengthWidth? op = some width)
    (rest : Bytes) : readItem op.byte rest = takeSizedPush width rest := by
  have hlt := op.maxDirectPush_lt_byte
  rw [readItem, if_neg (by omega), op.ofWire?_byte, Opcode.ofByte?_byte]
  simp only [hop]

/-- A single byte is read as its element, whatever follows. -/
theorem readItem_single {byte : UInt8} {element : Element} (h : Single byte element)
    (rest : Bytes) : readItem byte rest = .complete element rest := by
  obtain ⟨hcan, hdata, henc⟩ := h
  cases element with
  | data bytes => simp [Element.isData, Element.data?] at hdata
  | number n =>
    obtain rfl : n.toWire = byte := by simpa [Wire.encodeElement] using henc
    have hlt := n.maxDirectPush_lt_toWire
    rw [readItem, if_neg (by omega), SmallInt.ofWire?_toWire]
  | op op =>
    obtain rfl : op.byte = byte := by simpa [Wire.encodeElement] using henc
    have hlt := op.maxDirectPush_lt_byte
    rw [readItem, if_neg (by omega), op.ofWire?_byte, Opcode.ofByte?_byte]
    simp only [lengthWidth?_eq_none.2 hcan]
  | raw b =>
    obtain rfl : b = byte := by simpa [Wire.encodeElement] using henc
    obtain ⟨hlt, hnum, hop⟩ := hcan
    have hwire : SmallInt.ofWire? b = none :=
      Option.eq_none_iff_forall_ne_some.2 fun n hn => hnum n (SmallInt.toWire_of_ofWire? hn)
    have hbyte : Opcode.ofByte? b = none :=
      Option.eq_none_iff_forall_ne_some.2 fun op ho => hop op (Opcode.byte_of_ofByte? ho)
    have hnot : ¬ b.toNat ≤ maxDirectPush := Nat.not_le.2 hlt
    rw [readItem, if_neg hnot, hwire, hbyte]

/-- A single byte is no length. -/
theorem Single.maxDirectPush_lt {byte : UInt8} {element : Element} (h : Single byte element) :
    maxDirectPush < byte.toNat := by
  -- A length would be read as a push, or as a push cut off.
  by_contra hle
  have hread := readItem_single h []
  rw [readItem_direct (Nat.not_lt.1 hle), takePush] at hread
  split at hread
  · contradiction
  · have hdata := h.isData
    rw [← (Item.complete.inj hread).1] at hdata
    contradiction

/-- A single byte is no opcode that announces a push. -/
theorem Single.byte_ne {byte : UInt8} {element : Element} (h : Single byte element) {op : Opcode}
    {width : Nat} (hop : lengthWidth? op = some width) : byte ≠ op.byte := by
  rintro rfl
  have hwidth := lengthWidth?_eq_some hop
  have hread := readItem_single h []
  rw [readItem_sized hop, takeSizedPush, List.take_nil, List.length_nil, if_pos (by omega)]
    at hread
  contradiction

/-- A byte is a length, an opcode with a length field, or an element by itself. -/
theorem byte_cases (byte : UInt8) :
    byte.toNat ≤ maxDirectPush ∨
      (∃ op width, lengthWidth? op = some width ∧ op.byte = byte) ∨
      ∃ element, Single byte element := by
  by_cases hbyte : byte.toNat ≤ maxDirectPush
  · exact .inl hbyte
  right
  cases hwire : SmallInt.ofWire? byte with
  | some n =>
    refine .inr ⟨.number n, trivial, rfl, ?_⟩
    rw [Wire.encodeElement, SmallInt.toWire_of_ofWire? hwire]
  | none =>
    cases hop : Opcode.ofByte? byte with
    | some op =>
      have hb := Opcode.byte_of_ofByte? hop
      cases hwidth : lengthWidth? op with
      | some width => exact .inl ⟨op, width, hwidth, hb⟩
      | none =>
        refine .inr ⟨.op op, lengthWidth?_eq_none.1 hwidth, rfl, ?_⟩
        rw [Wire.encodeElement, hb]
    | none =>
      refine .inr ⟨.raw byte, ⟨by rw [maxDirectPush] at hbyte; omega, ?_, ?_⟩, rfl, rfl⟩
      · rintro n rfl
        rw [SmallInt.ofWire?_toWire] at hwire
        contradiction
      · rintro op rfl
        rw [Opcode.ofByte?_byte] at hop
        contradiction

/-- What an input begins with. -/
inductive Front : Bytes → Prop
  /-- Nothing. -/
  | empty : Front []
  /-- An element of one byte. -/
  | single {byte : UInt8} {element : Element} (rest : Bytes) (h : Single byte element) :
      Front (byte :: rest)
  /-- A push that is all there. -/
  | push {width : Nat} {header payload : Bytes} (rest : Bytes)
      (h : Header width payload.length header) : Front (header ++ (payload ++ rest))
  /-- A push of which the input holds only `payload`. -/
  | cutPayload {width wanted : Nat} {header payload : Bytes} (h : Header width wanted header)
      (hcut : payload.length < wanted) : Front (header ++ payload)
  /-- An opcode whose length field the input holds only in part. -/
  | cutLength {op : Opcode} {width : Nat} {field : Bytes} (hop : lengthWidth? op = some width)
      (hcut : field.length < width) : Front (op.byte :: field)

/-- Behind a header stands the whole payload or a part of it. -/
theorem Front.of_header {width length : Nat} {header : Bytes} (h : Header width length header)
    (rest : Bytes) : Front (header ++ rest) := by
  rcases Nat.lt_or_ge rest.length length with hcut | hle
  · exact .cutPayload h hcut
  · have hlen : (rest.take length).length = length := List.length_take_of_le hle
    rw [← hlen] at h
    rw [← List.take_append_drop length rest]
    exact .push (rest.drop length) h

/-- There is no other way to begin. -/
theorem front (bytes : Bytes) : Front bytes := by
  cases bytes with
  | nil => exact .empty
  | cons byte rest =>
    obtain hbyte | ⟨op, width, hop, rfl⟩ | ⟨element, h⟩ := byte_cases byte
    · exact .of_header (.direct hbyte) rest
    · rcases Nat.lt_or_ge rest.length width with hcut | hle
      · exact .cutLength hop hcut
      · have h := Header.sized hop (List.length_take_of_le hle)
        rw [← List.take_append_drop width rest]
        exact .of_header h (rest.drop width)
    · exact .single rest h

/-- Takes an input apart from the front: a property holds of every input when it holds of those
that end within the first item, and passes from what follows a complete item to the whole. -/
theorem input_induction {P : Bytes → Prop} (empty : P [])
    (single : ∀ {byte element} rest, Single byte element → P rest → P (byte :: rest))
    (push : ∀ {width header payload} rest, Header width payload.length header → P rest →
      P (header ++ (payload ++ rest)))
    (cutPayload : ∀ {width wanted header payload}, Header width wanted header →
      payload.length < wanted → P (header ++ payload))
    (cutLength : ∀ {op width field}, lengthWidth? op = some width → field.length < width →
      P (op.byte :: field))
    (bytes : Bytes) : P bytes := by
  -- What follows a push is shorter by more than one byte, so the recursion is on the length.
  induction hn : bytes.length using Nat.strongRecOn generalizing bytes with
  | ind n ih =>
    cases front bytes with
    | empty => exact empty
    | single rest h => exact single rest h (ih _ (by simp [← hn]) rest rfl)
    | push rest h =>
      have hlen := h.length_header
      refine push rest h (ih _ ?_ rest rfl)
      rw [← hn, List.length_append, List.length_append]
      omega
    | cutPayload h hcut => exact cutPayload h hcut
    | cutLength hop hcut => exact cutLength hop hcut

/-! ## Decoding the front -/

/-- Behind a header the payload is taken. -/
theorem readItem_header {width length : Nat} {byte : UInt8} {field : Bytes}
    (h : Header width length (byte :: field)) (rest : Bytes) :
    readItem byte (field ++ rest) = takePush length rest := by
  cases h with
  | direct hbyte => exact readItem_direct hbyte rest
  | sized hop hfield =>
    rw [readItem_sized hop, takeSizedPush]
    subst hfield
    simp

/-- Decoding goes on behind a complete item. -/
theorem decodeAfter_complete {byte : UInt8} {rest rest' : Bytes} {element : Element}
    (h : readItem byte rest = .complete element rest') (size : Nat) :
    decodeAfter size [] (byte :: rest) =
      ⟨element :: (decodeAfter size [] rest').script, (decodeAfter size [] rest').truncation⟩ := by
  have hstep : decodeAfter size [] (byte :: rest) = decodeAfter size [element] rest' := by
    rw [decodeAfter]
    split <;> simp_all
  rw [hstep, decodeAfter_eq]
  rfl

/-- Decoding ends with a payload that is cut off. -/
theorem decodeAfter_of_cutPayload {byte : UInt8} {rest payload : Bytes} {wanted : Nat}
    (h : readItem byte rest = .cutPayload wanted payload) (size : Nat) :
    decodeAfter size [] (byte :: rest) =
      ⟨[.data payload], some (.payload (size - payload.length) wanted payload.length)⟩ := by
  rw [decodeAfter]
  split <;> simp_all

/-- Decoding ends with a length field that is cut off. -/
theorem decodeAfter_of_cutLength {byte : UInt8} {rest field : Bytes}
    (h : readItem byte rest = .cutLength field) (size : Nat) :
    decodeAfter size [] (byte :: rest) =
      ⟨[.data []], some (.lengthField (size - field.length))⟩ := by
  rw [decodeAfter]
  split <;> simp_all

/-- A single byte is decoded to its element. -/
theorem decodeAfter_single {byte : UInt8} {element : Element} (h : Single byte element)
    (size : Nat) (rest : Bytes) :
    decodeAfter size [] (byte :: rest) =
      ⟨element :: (decodeAfter size [] rest).script, (decodeAfter size [] rest).truncation⟩ :=
  decodeAfter_complete (readItem_single h rest) size

/-- A push that is all there is decoded to its payload. -/
theorem decodeAfter_push {width : Nat} {header payload : Bytes}
    (h : Header width payload.length header) (size : Nat) (rest : Bytes) :
    decodeAfter size [] (header ++ (payload ++ rest)) =
      ⟨.data payload :: (decodeAfter size [] rest).script,
        (decodeAfter size [] rest).truncation⟩ := by
  obtain ⟨byte, field, rfl⟩ := List.exists_cons_of_length_eq_add_one h.length_header
  rw [List.cons_append]
  apply decodeAfter_complete
  rw [readItem_header h, takePush]
  simp

/-- A push whose payload is cut off is decoded to what is there of it, and ends the script. -/
theorem decodeAfter_cutPayload {width wanted : Nat} {header payload : Bytes}
    (h : Header width wanted header) (hcut : payload.length < wanted) (size : Nat) :
    decodeAfter size [] (header ++ payload) =
      ⟨[.data payload],
        some (.payload (size - payload.length) wanted payload.length)⟩ := by
  obtain ⟨byte, field, rfl⟩ := List.exists_cons_of_length_eq_add_one h.length_header
  have hitem : readItem byte (field ++ payload) = .cutPayload wanted payload := by
    rw [readItem_header h, takePush, List.take_of_length_le (by omega), if_pos hcut]
  exact decodeAfter_of_cutPayload hitem size

/-- A push whose length field is cut off is decoded to the empty push, and ends the script. -/
theorem decodeAfter_cutLength {op : Opcode} {width : Nat} {field : Bytes}
    (hop : lengthWidth? op = some width) (hcut : field.length < width) (size : Nat) :
    decodeAfter size [] (op.byte :: field) =
      ⟨[.data []], some (.lengthField (size - field.length))⟩ := by
  have hitem : readItem op.byte field = .cutLength field := by
    rw [readItem_sized hop, takeSizedPush, List.take_of_length_le (by omega), if_pos hcut]
  exact decodeAfter_of_cutLength hitem size

/-- The offsets in the reports are all that depends on the size of the input. -/
theorem decodeAfter_script (size : Nat) (bytes : Bytes) :
    (decodeAfter size [] bytes).script = (decode bytes).script := by
  rw [decode]
  generalize bytes.length = size'
  induction bytes using input_induction with
  | empty => rw [decodeAfter, decodeAfter]
  | single rest h ih => rw [decodeAfter_single h, decodeAfter_single h, ih]
  | push rest h ih => rw [decodeAfter_push h, decodeAfter_push h, ih]
  | cutPayload h hcut => rw [decodeAfter_cutPayload h hcut, decodeAfter_cutPayload h hcut]
  | cutLength hop hcut => rw [decodeAfter_cutLength hop hcut, decodeAfter_cutLength hop hcut]

/-- The empty input is the empty script. -/
@[simp] theorem script_decode_nil : (decode []).script = [] := by
  rw [decode, decodeAfter]
  rfl

/-- The script of an input that begins with a single byte. -/
theorem script_decode_single {byte : UInt8} {element : Element} (h : Single byte element)
    (rest : Bytes) : (decode (byte :: rest)).script = element :: (decode rest).script := by
  rw [decode, decodeAfter_single h, decodeAfter_script]

/-- The script of an input that begins with a complete push. -/
theorem script_decode_push {width : Nat} {header payload : Bytes}
    (h : Header width payload.length header) (rest : Bytes) :
    (decode (header ++ (payload ++ rest))).script = .data payload :: (decode rest).script := by
  rw [decode, decodeAfter_push h, decodeAfter_script]

/-- The script of an input that ends within a payload. -/
theorem script_decode_cutPayload {width wanted : Nat} {header payload : Bytes}
    (h : Header width wanted header) (hcut : payload.length < wanted) :
    (decode (header ++ payload)).script = [.data payload] := by
  rw [decode, decodeAfter_cutPayload h hcut]

/-- The script of an input that ends within a length field. -/
theorem script_decode_cutLength {op : Opcode} {width : Nat} {field : Bytes}
    (hop : lengthWidth? op = some width) (hcut : field.length < width) :
    (decode (op.byte :: field)).script = [.data []] := by
  rw [decode, decodeAfter_cutLength hop hcut]

end Wire

end UtxoScript
