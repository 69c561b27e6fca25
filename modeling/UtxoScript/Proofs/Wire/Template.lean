import UtxoScript.Proofs.Template
import UtxoScript.Proofs.Wire.RoundTrip

/-!
# The templates on the wire

Which inputs are read as which template. Reading is tolerant of pushes that are announced by more
bytes than they need and of pushes that the input cuts short, so a template has more than one wire
form. The main statement, `template_wire_forms`, says what they are: each opcode and each small
integer is its byte, and each push of the template is the payload behind any prefix that announces
its length (`CompletePush`). Only the push that ends a template may be cut short (`CutPush`), which
leaves the outputs that carry data.

Reading is inverted from the front: `script_decode_eq_single_iff` says which inputs are read as a
script that begins with an element of one byte, and `script_decode_eq_data_iff` which are read as
one that begins with a push. The templates are spelled out by rewriting with these two.
-/

namespace UtxoScript

namespace SmallInt

/-- The byte of a small integer follows from its value. -/
theorem toWire_eq_ofNat (n : SmallInt) : n.toWire = UInt8.ofNat (0x50 + n.toNat) := by
  rw [toNat, ← n.toNat_toWire, UInt8.ofNat_toNat]

end SmallInt

namespace Wire

/-! ## Pushes on the wire -/

/-- The bytes announce a push of `length` bytes. -/
inductive Announces (length : Nat) : Bytes → Prop
  /-- The length itself, as one byte. -/
  | direct (h : length ≤ 0x4b) : Announces length [UInt8.ofNat length]
  /-- A length field of one byte. -/
  | oneByte (h : length < 256 ^ 1) : Announces length (0x4c :: Bytes.ofNatLE 1 length)
  /-- A length field of two bytes. -/
  | twoBytes (h : length < 256 ^ 2) : Announces length (0x4d :: Bytes.ofNatLE 2 length)
  /-- A length field of four bytes. -/
  | fourBytes (h : length < 256 ^ 4) : Announces length (0x4e :: Bytes.ofNatLE 4 length)

/-- The bytes are a push of the payload that is all there. -/
def CompletePush (payload bytes : Bytes) : Prop :=
  ∃ header, Announces payload.length header ∧ bytes = header ++ payload

/-- The bytes are a push of which there is the payload and nothing more, at the end of an input. -/
inductive CutPush : (payload bytes : Bytes) → Prop
  /-- More than the payload is announced. -/
  | payload {announced : Nat} {header payload : Bytes} (h : Announces announced header)
    (hcut : payload.length < announced) : CutPush payload (header ++ payload)
  /-- There is no length field of one byte. -/
  | oneByte : CutPush [] [0x4c]
  /-- A length field of two bytes is not complete. -/
  | twoBytes {field : Bytes} (hcut : field.length < 2) : CutPush [] (0x4d :: field)
  /-- A length field of four bytes is not complete. -/
  | fourBytes {field : Bytes} (hcut : field.length < 4) : CutPush [] (0x4e :: field)

/-- The bytes that announce a push are those that are read as its header. -/
theorem announces_iff {length : Nat} {header : Bytes} :
    Announces length header ↔ ∃ width, Header width length header := by
  constructor
  · intro h
    cases h with
    | direct hle => exact ⟨0, .direct_ofNat hle⟩
    | oneByte hlt => exact ⟨1, .sized_ofNatLE (rfl : lengthWidth? .pushData1 = some 1) hlt⟩
    | twoBytes hlt => exact ⟨2, .sized_ofNatLE (rfl : lengthWidth? .pushData2 = some 2) hlt⟩
    | fourBytes hlt => exact ⟨4, .sized_ofNatLE (rfl : lengthWidth? .pushData4 = some 4) hlt⟩
  · rintro ⟨width, h⟩
    cases h with
    | direct hbyte =>
      have h := Announces.direct hbyte
      rwa [UInt8.ofNat_toNat] at h
    | @sized op width field hop hfield =>
      -- A length field is the number that it spells, in as many bytes as it has.
      have hlt := Bytes.toNatLE_lt field
      have hspelled := Bytes.ofNatLE_toNatLE field
      rw [hfield] at hlt hspelled
      rcases lengthWidth?_eq_some hop with ⟨rfl, rfl⟩ | ⟨rfl, rfl⟩ | ⟨rfl, rfl⟩
      · have h := Announces.oneByte hlt
        rwa [hspelled] at h
      · have h := Announces.twoBytes hlt
        rwa [hspelled] at h
      · have h := Announces.fourBytes hlt
        rwa [hspelled] at h

/-- A push whose length field is cut off is read as empty. -/
theorem CutPush.lengthField {op : Opcode} {width : Nat} {field : Bytes}
    (hop : lengthWidth? op = some width) (hcut : field.length < width) :
    CutPush [] (op.byte :: field) := by
  rcases lengthWidth?_eq_some hop with ⟨rfl, rfl⟩ | ⟨rfl, rfl⟩ | ⟨rfl, rfl⟩
  · obtain rfl : field = [] := List.length_eq_zero_iff.1 (by omega)
    exact .oneByte
  · exact .twoBytes hcut
  · exact .fourBytes hcut

/-! ## Reading backwards -/

/-- Nothing but the empty input is read as the empty script. -/
theorem script_decode_eq_nil_iff {bytes : Bytes} : (decode bytes).script = [] ↔ bytes = [] := by
  constructor
  · intro h
    cases front bytes with
    | empty => rfl
    | single rest hfront =>
      rw [script_decode_single hfront] at h
      contradiction
    | push rest hfront =>
      rw [script_decode_push hfront] at h
      contradiction
    | cutPayload hfront hcut =>
      rw [script_decode_cutPayload hfront hcut] at h
      contradiction
    | cutLength hop hcut =>
      rw [script_decode_cutLength hop hcut] at h
      contradiction
  · rintro rfl
    exact script_decode_nil

/-- The inputs that are read as a script that begins with an element of one byte are those that
begin with the byte. -/
theorem script_decode_eq_single_iff {byte : UInt8} {element : Element}
    (hsingle : Single byte element) {bytes : Bytes} {rest : Script} :
    (decode bytes).script = element :: rest ↔
      ∃ bytes', bytes = byte :: bytes' ∧ (decode bytes').script = rest := by
  -- A push is no such element.
  have hpush (payload : Bytes) (later : Script) :
      Element.data payload :: later ≠ element :: rest := by
    intro h
    have hdata := hsingle.isData
    rw [← (List.cons.inj h).1] at hdata
    contradiction
  constructor
  · intro h
    cases front bytes with
    | empty =>
      rw [script_decode_nil] at h
      contradiction
    | @single byte' element' bytes' hfront =>
      rw [script_decode_single hfront] at h
      obtain ⟨rfl, hrest⟩ := List.cons.inj h
      have hbyte : [byte'] = [byte] := hfront.encodeElement.symm.trans hsingle.encodeElement
      rw [(List.cons.inj hbyte).1]
      exact ⟨bytes', rfl, hrest⟩
    | push bytes' hfront =>
      rw [script_decode_push hfront] at h
      exact absurd h (hpush _ _)
    | cutPayload hfront hcut =>
      rw [script_decode_cutPayload hfront hcut] at h
      exact absurd h (hpush _ _)
    | cutLength hop hcut =>
      rw [script_decode_cutLength hop hcut] at h
      exact absurd h (hpush _ _)
  · rintro ⟨bytes', rfl, rfl⟩
    exact script_decode_single hsingle bytes'

/-- The inputs that are read as a script that begins with a push are those that begin with all of
the push, and those that are no more than the push cut short. -/
theorem script_decode_eq_data_iff {payload bytes : Bytes} {rest : Script} :
    (decode bytes).script = .data payload :: rest ↔
      (∃ push bytes', CompletePush payload push ∧ bytes = push ++ bytes' ∧
        (decode bytes').script = rest) ∨
      (rest = [] ∧ CutPush payload bytes) := by
  constructor
  · intro h
    cases front bytes with
    | empty =>
      rw [script_decode_nil] at h
      contradiction
    | single bytes' hfront =>
      rw [script_decode_single hfront] at h
      have hdata := hfront.isData
      rw [(List.cons.inj h).1] at hdata
      contradiction
    | push bytes' hfront =>
      rw [script_decode_push hfront] at h
      cases h
      refine .inl ⟨_, bytes', ⟨_, announces_iff.2 ⟨_, hfront⟩, rfl⟩, ?_, rfl⟩
      rw [List.append_assoc]
    | cutPayload hfront hcut =>
      rw [script_decode_cutPayload hfront hcut] at h
      cases h
      exact .inr ⟨rfl, .payload (announces_iff.2 ⟨_, hfront⟩) hcut⟩
    | cutLength hop hcut =>
      rw [script_decode_cutLength hop hcut] at h
      cases h
      exact .inr ⟨rfl, .lengthField hop hcut⟩
  · rintro (⟨push, bytes', ⟨header, hannounces, rfl⟩, rfl, rfl⟩ | ⟨rfl, hcut⟩)
    · obtain ⟨width, hheader⟩ := announces_iff.1 hannounces
      rw [List.append_assoc]
      exact script_decode_push hheader bytes'
    · cases hcut with
      | payload hannounces hcut =>
        obtain ⟨width, hheader⟩ := announces_iff.1 hannounces
        exact script_decode_cutPayload hheader hcut
      | oneByte =>
        exact script_decode_cutLength (rfl : lengthWidth? .pushData1 = some 1) Nat.one_pos
      | twoBytes hcut =>
        exact script_decode_cutLength (rfl : lengthWidth? .pushData2 = some 2) hcut
      | fourBytes hcut =>
        exact script_decode_cutLength (rfl : lengthWidth? .pushData4 = some 4) hcut

/-- A push with something behind it is all there. -/
theorem script_decode_eq_data_cons_iff {payload bytes : Bytes} {element : Element} {rest : Script} :
    (decode bytes).script = .data payload :: element :: rest ↔
      ∃ push bytes', CompletePush payload push ∧ bytes = push ++ bytes' ∧
        (decode bytes').script = element :: rest := by
  rw [script_decode_eq_data_iff]
  refine or_iff_left ?_
  rintro ⟨hnil, -⟩
  contradiction

/-- Pushes with something behind them are all there. -/
theorem script_decode_eq_pushes_iff {payloads : List Bytes} {bytes : Bytes} {element : Element}
    {rest : Script} :
    (decode bytes).script = payloads.map .data ++ element :: rest ↔
      ∃ pushes bytes', List.Forall₂ CompletePush payloads pushes ∧
        bytes = pushes.flatten ++ bytes' ∧ (decode bytes').script = element :: rest := by
  induction payloads generalizing bytes with
  | nil =>
    constructor
    · intro h
      exact ⟨[], bytes, .nil, rfl, h⟩
    · rintro ⟨pushes, bytes', hpushes, rfl, h⟩
      cases hpushes
      exact h
  | cons payload payloads ih =>
    -- Behind the first push stands the next one or what follows them all.
    obtain ⟨next, later, hnext⟩ : ∃ next later,
        (payloads.map .data ++ element :: rest : Script) = next :: later :=
      List.exists_cons_of_ne_nil (List.append_ne_nil_of_right_ne_nil _ (List.cons_ne_nil _ _))
    rw [List.map_cons, List.cons_append, hnext, script_decode_eq_data_cons_iff, ← hnext]
    simp only [ih]
    constructor
    · rintro ⟨push, _, hpush, rfl, pushes, bytes', hpushes, rfl, h⟩
      exact ⟨push :: pushes, bytes', .cons hpush hpushes, by simp, h⟩
    · rintro ⟨_, bytes', hpushes, rfl, h⟩
      cases hpushes with
      | @cons _ push _ pushes hpush hpushes =>
        exact ⟨push, _, hpush, by simp, pushes, bytes', hpushes, rfl, h⟩

/-! ## The templates -/

/-- An opcode that announces no push is its byte. -/
theorem single_op {op : Opcode} {byte : UInt8} (hbyte : op.byte = byte)
    (hop : lengthWidth? op = none) : Single byte (.op op) :=
  ⟨lengthWidth?_eq_none.1 hop, rfl, by rw [encodeElement, hbyte]⟩

section

variable {bytes : Bytes}

/-- The inputs that are read as a lock to a key digest. -/
theorem pubKeyHash?_decode_eq_some_iff {hash : Bytes} :
    Template.pubKeyHash? (decode bytes).script = some hash ↔
      hash.length = 20 ∧
        ∃ push, CompletePush hash push ∧ bytes = [0x76, 0xa9] ++ push ++ [0x88, 0xac] := by
  have dup : Single 0x76 (.op .dup) := single_op rfl rfl
  have hash160 : Single 0xa9 (.op .hash160) := single_op rfl rfl
  have equalVerify : Single 0x88 (.op .equalVerify) := single_op rfl rfl
  have checkSig : Single 0xac (.op .checkSig) := single_op rfl rfl
  rw [pubKeyHash?_eq_some_iff, and_comm]
  refine and_congr_right fun _ => ?_
  simp only [script_decode_eq_single_iff dup, script_decode_eq_single_iff hash160,
    script_decode_eq_data_cons_iff, script_decode_eq_single_iff equalVerify,
    script_decode_eq_single_iff checkSig, script_decode_eq_nil_iff]
  constructor
  · rintro ⟨_, rfl, _, rfl, push, _, hpush, rfl, _, rfl, _, rfl, rfl⟩
    exact ⟨push, hpush, rfl⟩
  · rintro ⟨push, hpush, rfl⟩
    exact ⟨_, rfl, _, rfl, push, _, hpush, rfl, _, rfl, _, rfl, rfl⟩

/-- The inputs that are read as a lock to a script digest. -/
theorem scriptHash?_decode_eq_some_iff {hash : Bytes} :
    Template.scriptHash? (decode bytes).script = some hash ↔
      hash.length = 20 ∧ ∃ push, CompletePush hash push ∧ bytes = [0xa9] ++ push ++ [0x87] := by
  have hash160 : Single 0xa9 (.op .hash160) := single_op rfl rfl
  have equal : Single 0x87 (.op .equal) := single_op rfl rfl
  rw [scriptHash?_eq_some_iff, and_comm]
  refine and_congr_right fun _ => ?_
  simp only [script_decode_eq_single_iff hash160, script_decode_eq_data_cons_iff,
    script_decode_eq_single_iff equal, script_decode_eq_nil_iff]
  constructor
  · rintro ⟨_, rfl, push, _, hpush, rfl, _, rfl, rfl⟩
    exact ⟨push, hpush, rfl⟩
  · rintro ⟨push, hpush, rfl⟩
    exact ⟨_, rfl, push, _, hpush, rfl, _, rfl, rfl⟩

/-- The inputs that are read as a lock to a key. -/
theorem pubKey?_decode_eq_some_iff {key : Bytes} :
    Template.pubKey? (decode bytes).script = some key ↔
      ∃ push, CompletePush key push ∧ bytes = push ++ [0xac] := by
  have checkSig : Single 0xac (.op .checkSig) := single_op rfl rfl
  rw [pubKey?_eq_some_iff]
  simp only [script_decode_eq_data_cons_iff, script_decode_eq_single_iff checkSig,
    script_decode_eq_nil_iff]
  constructor
  · rintro ⟨push, _, hpush, rfl, _, rfl, rfl⟩
    exact ⟨push, hpush, rfl⟩
  · rintro ⟨push, hpush, rfl⟩
    exact ⟨push, _, hpush, rfl, _, rfl, rfl⟩

/-- The inputs that are read as an output that carries data: the push may be cut short. -/
theorem nullData?_decode_eq_some_iff {payload : Bytes} :
    Template.nullData? (decode bytes).script = some payload ↔
      payload.length ≤ 40 ∧
        ∃ push, (CompletePush payload push ∨ CutPush payload push) ∧ bytes = 0x6a :: push := by
  have opReturn : Single 0x6a (.op .opReturn) := single_op rfl rfl
  rw [nullData?_eq_some_iff, and_comm]
  refine and_congr_right fun _ => ?_
  simp only [script_decode_eq_single_iff opReturn, script_decode_eq_data_iff,
    script_decode_eq_nil_iff]
  constructor
  · rintro ⟨push, rfl, ⟨push', _, hpush, rfl, rfl⟩ | ⟨-, hcut⟩⟩
    · rw [List.append_nil]
      exact ⟨push', .inl hpush, rfl⟩
    · exact ⟨push, .inr hcut, rfl⟩
  · rintro ⟨push, hpush | hcut, rfl⟩
    · exact ⟨push, rfl, .inl ⟨push, [], hpush, (List.append_nil push).symm, rfl⟩⟩
    · exact ⟨push, rfl, .inr ⟨trivial, hcut⟩⟩

/-- The inputs that are read as the template of a multisig lock. -/
theorem script_decode_eq_multisig_iff {m n : SmallInt} {keys : List Bytes} :
    (decode bytes).script =
        [.number m] ++ keys.map .data ++ [.number n, .op .checkMultiSig] ↔
      ∃ pushes, List.Forall₂ CompletePush keys pushes ∧
        bytes = m.toWire :: pushes.flatten ++ [n.toWire, 0xae] := by
  have number (n : SmallInt) : Single n.toWire (.number n) := ⟨trivial, rfl, rfl⟩
  have checkMultiSig : Single 0xae (.op .checkMultiSig) := single_op rfl rfl
  rw [List.singleton_append, List.cons_append]
  simp only [script_decode_eq_single_iff (number _), script_decode_eq_pushes_iff,
    script_decode_eq_single_iff checkMultiSig, script_decode_eq_nil_iff]
  constructor
  · rintro ⟨_, rfl, pushes, _, hpushes, rfl, _, rfl, _, rfl, rfl⟩
    exact ⟨pushes, hpushes, rfl⟩
  · rintro ⟨pushes, hpushes, rfl⟩
    exact ⟨_, rfl, pushes, _, hpushes, rfl, _, rfl, _, rfl, rfl⟩

/-- The inputs that are read as a multisig lock. The numbers in it are those of small integers. -/
theorem multisig_decode_iff {required total : Nat} {keys : List Bytes} :
    (∃ lock, Multisig.ofScript? (decode bytes).script = some lock ∧
        lock.required.toNat = required ∧ lock.total.toNat = total ∧ lock.keys = keys) ↔
      1 ≤ required ∧ required ≤ total ∧ total ≤ 16 ∧ keys.length = total ∧
        ∃ pushes, List.Forall₂ CompletePush keys pushes ∧
          bytes = UInt8.ofNat (0x50 + required) :: pushes.flatten ++
            [UInt8.ofNat (0x50 + total), 0xae] := by
  rw [Multisig.ofScript?_eq_some_iff_template]
  refine and_congr_right fun hone => and_congr_right fun hle => and_congr_right fun hsixteen =>
    and_congr_right fun _ => ?_
  simp only [script_decode_eq_multisig_iff, SmallInt.toWire_eq_ofNat]
  constructor
  · rintro ⟨m, n, rfl, rfl, hbytes⟩
    exact hbytes
  · intro hbytes
    obtain ⟨m, rfl⟩ := SmallInt.exists_toNat_iff.2 ⟨hone, hle.trans hsixteen⟩
    obtain ⟨n, rfl⟩ := SmallInt.exists_toNat_iff.2 ⟨hone.trans hle, hsixteen⟩
    exact ⟨m, n, rfl, rfl, hbytes⟩

end

/-- **The templates on the wire.** Each template is read from the bytes of its opcodes and of its
small integers, with a complete push for each payload, and from nothing else. The push of an output
that carries data ends the input and may be cut short. -/
theorem template_wire_forms (bytes : Bytes) :
    (∀ hash, Template.pubKeyHash? (decode bytes).script = some hash ↔
      hash.length = 20 ∧
        ∃ push, CompletePush hash push ∧ bytes = [0x76, 0xa9] ++ push ++ [0x88, 0xac]) ∧
    (∀ hash, Template.scriptHash? (decode bytes).script = some hash ↔
      hash.length = 20 ∧
        ∃ push, CompletePush hash push ∧ bytes = [0xa9] ++ push ++ [0x87]) ∧
    (∀ key, Template.pubKey? (decode bytes).script = some key ↔
      ∃ push, CompletePush key push ∧ bytes = push ++ [0xac]) ∧
    (∀ (required total : Nat) (keys : List Bytes),
      (∃ lock, Multisig.ofScript? (decode bytes).script = some lock ∧
          lock.required.toNat = required ∧ lock.total.toNat = total ∧ lock.keys = keys) ↔
        1 ≤ required ∧ required ≤ total ∧ total ≤ 16 ∧ keys.length = total ∧
          ∃ pushes, List.Forall₂ CompletePush keys pushes ∧
            bytes = UInt8.ofNat (0x50 + required) :: pushes.flatten ++
              [UInt8.ofNat (0x50 + total), 0xae]) ∧
    (∀ payload, Template.nullData? (decode bytes).script = some payload ↔
      payload.length ≤ 40 ∧
        ∃ push, (CompletePush payload push ∨ CutPush payload push) ∧ bytes = 0x6a :: push) :=
  ⟨fun _ => pubKeyHash?_decode_eq_some_iff, fun _ => scriptHash?_decode_eq_some_iff,
    fun _ => pubKey?_decode_eq_some_iff, fun _ _ _ => multisig_decode_iff,
    fun _ => nullData?_decode_eq_some_iff⟩

end Wire

end UtxoScript
