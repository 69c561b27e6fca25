import UtxoScript.Proofs.Wire.RoundTrip

/-!
# Writing what was read

Reading forgets how a push was announced, and writing takes the shortest header, so an input comes
back only if its pushes had that header and were all there. `scan` lists the pushes that an input
holds, without building their payloads into elements; the main statement,
`encode_decode_eq_iff`, says which inputs come back in terms of it, that the others become no
longer, and that a second reading changes nothing.

The first push that does not come back makes the output differ whatever stands behind it: no item
is written longer than it was read, so equal outputs need each item to be written as it was read.
-/

namespace UtxoScript

namespace Wire

/-! ## Scanning -/

/-- A push as a scan meets it. The width is that of its length field, and a direct push, whose
length is its first byte, has the width zero. -/
inductive Push
  /-- The push announces `length` bytes, and the input holds `present` of them. -/
  | announced (width length present : Nat)
  /-- The input ends within the length field. -/
  | cutLength (width : Nat)
  deriving DecidableEq

/-- The input holds all of the push. -/
def Push.Complete : Push → Prop
  | .announced _ length present => present = length
  | .cutLength _ => False

/-- The least length that a length field of this width is needed for. -/
def leastLength (width : Nat) : Nat :=
  if width = 0 then 0
  else if width = 1 then 0x4c
  else if width = 2 then 0x100
  else 0x10000

/-- The push has the length field that its length is needed for, so far as there is one. -/
def Push.Minimal : Push → Prop
  | .announced width length _ => leastLength width ≤ length
  | .cutLength _ => True

instance : DecidablePred Push.Complete
  | .announced _ length present => inferInstanceAs (Decidable (present = length))
  | .cutLength _ => inferInstanceAs (Decidable False)

instance : DecidablePred Push.Minimal
  | .announced width length _ => inferInstanceAs (Decidable (leastLength width ≤ length))
  | .cutLength _ => inferInstanceAs (Decidable True)

/-- The width of the length field behind a byte that announces a push. -/
def announcedWidth? (byte : UInt8) : Option Nat :=
  if byte.toNat ≤ 0x4b then some 0
  else if byte = 0x4c then some 1
  else if byte = 0x4d then some 2
  else if byte = 0x4e then some 4
  else none

/-- The pushes that an input holds. -/
def scan : Bytes → List Push
  | [] => []
  | byte :: rest =>
    match announcedWidth? byte with
    | none => scan rest
    | some width =>
      if rest.length < width then [.cutLength width]
      else
        let length := if width = 0 then byte.toNat else Bytes.toNatLE (rest.take width)
        let payload := (rest.drop width).take length
        .announced width length payload.length :: scan (rest.drop (width + length))
termination_by bytes => bytes.length
decreasing_by
  · exact Nat.lt_succ_self rest.length
  · rw [List.length_drop]
    exact Nat.lt_succ_of_le (Nat.sub_le _ _)

/-! ## Scanning the front -/

/-- An opcode announces the width of its length field. -/
theorem announcedWidth?_byte {op : Opcode} {width : Nat} (hop : lengthWidth? op = some width) :
    announcedWidth? op.byte = some width := by
  rcases lengthWidth?_eq_some hop with ⟨rfl, rfl⟩ | ⟨rfl, rfl⟩ | ⟨rfl, rfl⟩ <;> rfl

/-- A single byte announces no push. -/
theorem announcedWidth?_single {byte : UInt8} {element : Element} (h : Single byte element) :
    announcedWidth? byte = none := by
  have h1 : byte ≠ 0x4c := h.byte_ne (rfl : lengthWidth? .pushData1 = some 1)
  have h2 : byte ≠ 0x4d := h.byte_ne (rfl : lengthWidth? .pushData2 = some 2)
  have h4 : byte ≠ 0x4e := h.byte_ne (rfl : lengthWidth? .pushData4 = some 4)
  have hnot : ¬ byte.toNat ≤ 0x4b := Nat.not_le.2 h.maxDirectPush_lt
  rw [announcedWidth?, if_neg hnot, if_neg h1, if_neg h2, if_neg h4]

/-- A single byte holds no push. -/
theorem scan_single {byte : UInt8} {element : Element} (h : Single byte element)
    (rest : Bytes) : scan (byte :: rest) = scan rest := by
  rw [scan, announcedWidth?_single h]

/-- Behind a header the scan meets as much of the payload as there is. -/
theorem scan_header {width length : Nat} {header : Bytes} (h : Header width length header)
    (rest : Bytes) :
    scan (header ++ rest) =
      .announced width length (rest.take length).length :: scan (rest.drop length) := by
  cases h with
  | direct hbyte =>
    rename_i byte
    have hwidth : announcedWidth? byte = some 0 := if_pos hbyte
    rw [List.cons_append, List.nil_append, scan, hwidth]
    simp
  | sized hop hfield =>
    rename_i op field
    have hpos : ¬ width = 0 := by have := lengthWidth?_eq_some hop; omega
    subst hfield
    rw [List.cons_append, scan, announcedWidth?_byte hop]
    simp [hpos]

/-- A push that is all there, with what the scan meets behind it. -/
theorem scan_push {width : Nat} {header payload : Bytes}
    (h : Header width payload.length header) (rest : Bytes) :
    scan (header ++ (payload ++ rest)) =
      .announced width payload.length payload.length :: scan rest := by
  rw [scan_header h, List.take_left, List.drop_left]

/-- A push whose payload is cut off. -/
theorem scan_cutPayload {width wanted : Nat} {header payload : Bytes}
    (h : Header width wanted header) (hcut : payload.length < wanted) :
    scan (header ++ payload) = [.announced width wanted payload.length] := by
  rw [scan_header h, List.take_of_length_le (by omega), List.drop_of_length_le (by omega), scan]

/-- A push whose length field is cut off. -/
theorem scan_cutLength {op : Opcode} {width : Nat} {field : Bytes}
    (hop : lengthWidth? op = some width) (hcut : field.length < width) :
    scan (op.byte :: field) = [.cutLength width] := by
  rw [scan, announcedWidth?_byte hop]
  exact if_pos hcut

/-! ## Writing the front -/

/-- The shortest header is no wider than another that announces as much. -/
theorem headerWidth_le {width length n : Nat} {header : Bytes} (h : Header width length header)
    (hn : n ≤ length) : headerWidth n ≤ width := by
  have hbounds := h.bounds
  unfold headerWidth
  split_ifs <;> omega

/-- A header is the shortest one exactly if it has the width that its length is needed for. -/
theorem pushHeader_eq_iff {width length : Nat} {header : Bytes} (h : Header width length header) :
    pushHeader length = header ↔ leastLength width ≤ length := by
  have hshort := pushHeader_header h.length_lt
  have hwidth : headerWidth length = width ↔ leastLength width ≤ length := by
    have hbounds := h.bounds
    unfold headerWidth leastLength
    rw [maxDirectPush] at *
    split_ifs <;> omega
  rw [← hwidth]
  constructor
  · intro heq
    have hlen := hshort.length_header
    rw [heq, h.length_header] at hlen
    omega
  · intro heq
    exact hshort.unique h heq rfl

/-- The header written for what is there of a push is no longer than the one that was read. -/
theorem length_pushHeader_le {width length n : Nat} {header : Bytes}
    (h : Header width length header) (hn : n ≤ length) :
    (pushHeader n).length ≤ header.length := by
  have hle := headerWidth_le h hn
  rw [(pushHeader_header (hn.trans_lt h.length_lt)).length_header, h.length_header]
  omega

/-- The wire form of a script begins with that of its first element. -/
theorem encode_cons (element : Element) (script : Script) :
    encode (element :: script) = encodeElement element ++ encode script := List.flatMap_cons

/-- The wire form of a script of one push. -/
theorem encode_data (payload : Bytes) :
    encode [.data payload] = pushHeader payload.length ++ payload := by
  rw [encode_cons, encode, List.flatMap_nil, List.append_nil, encodeElement]

/-- Writing what was read gives no more bytes than were read. -/
theorem length_encode_decode_le (bytes : Bytes) :
    (encode (decode bytes).script).length ≤ bytes.length := by
  induction bytes using input_induction with
  | empty => simp [encode]
  | single rest h ih =>
    rw [script_decode_single h, encode_cons, h.encodeElement, List.length_append,
      List.length_singleton, List.length_cons]
    omega
  | push rest h ih =>
    have hle := length_pushHeader_le h le_rfl
    rw [script_decode_push h, encode_cons, encodeElement]
    simp only [List.length_append]
    omega
  | cutPayload h hcut =>
    have hle := length_pushHeader_le h hcut.le
    rw [script_decode_cutPayload h hcut, encode_data, List.length_append, List.length_append]
    omega
  | cutLength hop hcut =>
    rw [script_decode_cutLength hop hcut, List.length_cons]
    exact Nat.succ_le_succ (Nat.zero_le _)

/-- What was read is written as it was exactly if every push that it holds is complete and
minimal. -/
theorem encode_decode_eq_self_iff (bytes : Bytes) :
    encode (decode bytes).script = bytes ↔
      ∀ push ∈ scan bytes, push.Complete ∧ push.Minimal := by
  induction bytes using input_induction with
  | empty => simp [encode, scan]
  | single rest h ih =>
    rw [script_decode_single h, encode_cons, h.encodeElement, scan_single h, ← ih]
    exact List.cons_inj_right _
  | @push width header payload rest h ih =>
    rw [script_decode_push h, encode_cons, encodeElement, scan_push h, List.forall_mem_cons,
      ← ih, List.append_assoc]
    have hfront : (Push.announced width payload.length payload.length).Complete ∧
        (Push.announced width payload.length payload.length).Minimal ↔
          pushHeader payload.length = header := by
      rw [pushHeader_eq_iff h]
      exact ⟨fun hp => hp.2, fun hp => ⟨rfl, hp⟩⟩
    rw [hfront]
    constructor
    · intro heq
      -- Neither part grows, so neither shrinks.
      have hlen := congrArg List.length heq
      simp only [List.length_append] at hlen
      have hheader := length_pushHeader_le h le_rfl
      have hrest := length_encode_decode_le rest
      obtain ⟨h1, h2⟩ := List.append_inj heq (by omega)
      exact ⟨h1, (List.append_right_inj _).1 h2⟩
    · rintro ⟨h1, h2⟩
      rw [h1, h2]
  | cutPayload h hcut =>
    rw [script_decode_cutPayload h hcut, encode_data, scan_cutPayload h hcut,
      List.forall_mem_singleton]
    constructor
    · intro heq
      -- The header that is written announces what is there, the one that was read announces more.
      have hshort := pushHeader_header (hcut.trans h.length_lt)
      have hlen := hshort.length_unique h (List.append_cancel_right heq)
      omega
    · rintro ⟨hcomplete, _⟩
      exact absurd hcomplete hcut.ne
  | @cutLength op width field hop hcut =>
    rw [script_decode_cutLength hop hcut, encode_data, scan_cutLength hop hcut,
      List.forall_mem_singleton]
    constructor
    · intro heq
      -- The empty push is written as a zero byte, which is no opcode.
      have hlt := op.maxDirectPush_lt_byte
      have hbyte : (0 : UInt8) = op.byte := (List.cons.inj heq).1
      rw [← hbyte] at hlt
      contradiction
    · rintro ⟨hcomplete, _⟩
      exact hcomplete.elim

/-- Writing what was read gives the input back exactly if the scan of the input meets only complete
and minimal pushes. It never gives more bytes than were read, and reading and writing once more
changes nothing. -/
theorem encode_decode_eq_iff (bytes : Bytes) :
    (encode (decode bytes).script = bytes ↔
      ∀ push ∈ scan bytes, push.Complete ∧ push.Minimal) ∧
    (encode (decode bytes).script).length ≤ bytes.length ∧
    encode (decode (encode (decode bytes).script)).script = encode (decode bytes).script := by
  refine ⟨encode_decode_eq_self_iff bytes, length_encode_decode_le bytes, ?_⟩
  rw [script_decode_encode (canonical_of_mem_decode bytes)]

end Wire

end UtxoScript
