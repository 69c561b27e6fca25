import Mathlib.Data.List.Forall2
import UtxoScript.Proofs.Wire.Template

/-!
# Reading is local

What is read at one place does not depend on what stands elsewhere. Behind bytes of which nothing
is reported, an input is read as it is by itself, and the offsets in the reports are those from the
start of the whole (`decode_append`). Where an input is cut off, what was read of it before stays,
and at most the push in which the cut falls loses bytes (`decode_take`).

`Decoded.after` puts what was read of the bytes in front before what is read of the others. The
equations `decode_single`, `decode_push`, `decode_cutPayload` and `decode_cutLength` say what
`decode` makes of each way in which an input can begin, offsets included. Bytes of which nothing is
reported are the complete forms of their elements, one behind the other (`truncation_eq_none_iff`),
and those are read one at a time.
-/

namespace UtxoScript

/-- The truncation, told from the start of an input in which `n` bytes stand before. -/
def Truncation.behind (n : Nat) : Truncation → Truncation
  | .payload offset wanted remaining => .payload (offset + n) wanted remaining
  | .lengthField offset => .lengthField (offset + n)

/-- What is read of an input whose first `size` bytes hold all of `front`, where `later` is read of
the others. -/
def Decoded.after (size : Nat) (front : Script) (later : Decoded) : Decoded :=
  ⟨front ++ later.script, later.truncation.map (·.behind size)⟩

@[simp] theorem Truncation.behind_zero (t : Truncation) : t.behind 0 = t := by
  cases t <;> rfl

/-- Bytes in front of bytes in front are counted together. -/
@[simp] theorem Truncation.behind_behind (m n : Nat) (t : Truncation) :
    (t.behind m).behind n = t.behind (n + m) := by
  cases t <;> simp [behind] <;> omega

namespace Decoded

@[simp] theorem after_zero (later : Decoded) : later.after 0 [] = later := by
  simp [after]

/-- What stands in front of the bytes in front comes first. -/
theorem after_after (m n : Nat) (front front' : Script) (later : Decoded) :
    (later.after m front).after n front' = later.after (n + m) (front' ++ front) := by
  simp [after, Function.comp_def]

/-- Nothing is reported where nothing is cut. -/
theorem log_eq_nil_iff {decoded : Decoded} : decoded.log = [] ↔ decoded.truncation = none := by
  unfold log
  cases decoded.truncation <;> simp

end Decoded

namespace Wire

/-! ## Inputs by what they begin with -/

/-- In a longer input the offsets of what stands at its end are greater. -/
theorem decodeAfter_add {size : Nat} (n : Nat) {bytes : Bytes} (h : bytes.length ≤ size) :
    decodeAfter (n + size) [] bytes = (decodeAfter size [] bytes).after n [] := by
  induction bytes using input_induction with
  | empty => rw [decodeAfter, decodeAfter]; rfl
  | single rest hsingle ih =>
    rw [List.length_cons] at h
    rw [decodeAfter_single hsingle, decodeAfter_single hsingle, ih (by omega)]
    rfl
  | push rest hheader ih =>
    rw [List.length_append, List.length_append] at h
    rw [decodeAfter_push hheader, decodeAfter_push hheader, ih (by omega)]
    rfl
  | @cutPayload width wanted header payload hheader hcut =>
    rw [List.length_append] at h
    have hoffset : n + size - payload.length = size - payload.length + n := by omega
    rw [decodeAfter_cutPayload hheader hcut, decodeAfter_cutPayload hheader hcut, hoffset]
    rfl
  | @cutLength op width field hop hcut =>
    rw [List.length_cons] at h
    have hoffset : n + size - field.length = size - field.length + n := by omega
    rw [decodeAfter_cutLength hop hcut, decodeAfter_cutLength hop hcut, hoffset]
    rfl

/-- Nothing is read of the empty input. -/
@[simp] theorem decode_nil : decode [] = ⟨[], none⟩ := by
  rw [decode, decodeAfter]
  rfl

/-- An input that begins with a single byte. -/
theorem decode_single {byte : UInt8} {element : Element} (h : Single byte element)
    (rest : Bytes) : decode (byte :: rest) = (decode rest).after 1 [element] := by
  rw [decode, decodeAfter_single h, List.length_cons, Nat.add_comm, decodeAfter_add 1 le_rfl]
  rfl

/-- An input that begins with a complete push. -/
theorem decode_push {width : Nat} {header payload : Bytes}
    (h : Header width payload.length header) (rest : Bytes) :
    decode (header ++ (payload ++ rest)) =
      (decode rest).after (header.length + payload.length) [.data payload] := by
  rw [decode, decodeAfter_push h, List.length_append, List.length_append, ← Nat.add_assoc,
    decodeAfter_add _ le_rfl]
  rfl

/-- An input that ends within a payload: the payload begins behind the header. -/
theorem decode_cutPayload {width wanted : Nat} {header payload : Bytes}
    (h : Header width wanted header) (hcut : payload.length < wanted) :
    decode (header ++ payload) =
      ⟨[.data payload], some (.payload header.length wanted payload.length)⟩ := by
  rw [decode, decodeAfter_cutPayload h hcut, List.length_append, Nat.add_sub_cancel]

/-- An input that ends within a length field: the field begins behind the opcode. -/
theorem decode_cutLength {op : Opcode} {width : Nat} {field : Bytes}
    (hop : lengthWidth? op = some width) (hcut : field.length < width) :
    decode (op.byte :: field) = ⟨[.data []], some (.lengthField 1)⟩ := by
  rw [decode, decodeAfter_cutLength hop hcut, List.length_cons, Nat.add_sub_cancel_left]

/-! ## Complete forms -/

/-- The bytes are all of the element on the wire. -/
inductive CompleteForm : Element → Bytes → Prop
  /-- An element of one byte. -/
  | single {byte : UInt8} {element : Element} (h : Single byte element) :
      CompleteForm element [byte]
  /-- A push that is all there, behind any header that announces its length. -/
  | push {payload bytes : Bytes} (h : CompletePush payload bytes) :
      CompleteForm (.data payload) bytes

/-- A canonical element is written as a complete form. -/
theorem completeForm_encodeElement {element : Element} (h : element.Canonical) :
    CompleteForm element (encodeElement element) := by
  obtain ⟨byte, hsingle, henc⟩ | ⟨width, header, payload, hheader, rfl, henc⟩ :=
    encodeElement_cases h
  · rw [henc]
    exact .single hsingle
  · rw [henc]
    exact .push ⟨header, announces_iff.2 ⟨width, hheader⟩, rfl⟩

/-- An element whose complete form stands in front is read, and nothing is reported of it. -/
theorem CompleteForm.decode_eq_after {element : Element} {form : Bytes}
    (h : CompleteForm element form) (rest : Bytes) :
    decode (form ++ rest) = (decode rest).after form.length [element] := by
  cases h with
  | single hsingle => exact decode_single hsingle rest
  | push hpush =>
    obtain ⟨header, hannounces, rfl⟩ := hpush
    obtain ⟨width, hheader⟩ := announces_iff.1 hannounces
    rw [List.append_assoc, decode_push hheader, List.length_append]

/-- Complete forms that stand in front are read as their elements, and nothing is reported of
them. -/
theorem decode_flatten_append {script : Script} {forms : List Bytes}
    (h : List.Forall₂ CompleteForm script forms) (rest : Bytes) :
    decode (forms.flatten ++ rest) = (decode rest).after forms.flatten.length script := by
  induction h with
  | nil => exact (Decoded.after_zero _).symm
  | cons hform hforms ih =>
    rw [List.flatten_cons, List.append_assoc, hform.decode_eq_after, ih, Decoded.after_after,
      List.length_append]
    rfl

/-- Nothing is reported of an input exactly if it is the complete forms of what is read, one behind
the other. -/
theorem truncation_eq_none_iff (bytes : Bytes) :
    (decode bytes).truncation = none ↔
      ∃ forms, List.Forall₂ CompleteForm (decode bytes).script forms ∧ bytes = forms.flatten := by
  constructor
  · intro h
    induction bytes using input_induction with
    | empty =>
      rw [decode_nil]
      exact ⟨[], .nil, rfl⟩
    | @single byte element rest hsingle ih =>
      rw [decode_single hsingle] at h ⊢
      -- What is reported of the rest is reported of the whole.
      obtain ⟨forms, hforms, hrest⟩ := ih (Option.map_eq_none_iff.1 h)
      exact ⟨[byte] :: forms, .cons (.single hsingle) hforms, congrArg (byte :: ·) hrest⟩
    | @push width header payload rest hheader ih =>
      rw [decode_push hheader] at h ⊢
      obtain ⟨forms, hforms, hrest⟩ := ih (Option.map_eq_none_iff.1 h)
      refine ⟨(header ++ payload) :: forms, .cons (.push ?_) hforms, ?_⟩
      · exact ⟨header, announces_iff.2 ⟨width, hheader⟩, rfl⟩
      · rw [List.flatten_cons, ← hrest, List.append_assoc]
    | cutPayload hheader hcut =>
      rw [decode_cutPayload hheader hcut] at h
      contradiction
    | cutLength hop hcut =>
      rw [decode_cutLength hop hcut] at h
      contradiction
  · rintro ⟨forms, hforms, hbytes⟩
    have hdecode := decode_flatten_append hforms []
    rw [List.append_nil, ← hbytes, decode_nil] at hdecode
    rw [hdecode]
    rfl

/-! ## What stands in front -/

/-- Behind bytes of which nothing is reported, an input is read as it is by itself. -/
theorem decode_append_of_not_truncated {front : Bytes} (h : (decode front).truncation = none)
    (bytes : Bytes) :
    decode (front ++ bytes) = (decode bytes).after front.length (decode front).script := by
  obtain ⟨forms, hforms, hfront⟩ := (truncation_eq_none_iff front).1 h
  have hdecode := decode_flatten_append hforms bytes
  rwa [← hfront] at hdecode

/-- Behind what was written for a canonical script, an input is read as it is by itself. -/
theorem decode_encode_append {script : Script} (h : ∀ element ∈ script, element.Canonical)
    (bytes : Bytes) :
    decode (encode script ++ bytes) = (decode bytes).after (encode script).length script := by
  have hforms : List.Forall₂ CompleteForm script (script.map encodeElement) :=
    List.forall₂_map_right_iff.2 (List.forall₂_same.2 fun element helement =>
      completeForm_encodeElement (h element helement))
  rw [encode, List.flatMap_def]
  exact decode_flatten_append hforms bytes

/-- A canonical script is read from its wire form, and nothing is reported. -/
theorem decode_encode {script : Script} (h : ∀ element ∈ script, element.Canonical) :
    decode (encode script) = ⟨script, none⟩ := by
  have hread := decode_encode_append h []
  rw [List.append_nil, decode_nil] at hread
  rw [hread, Decoded.after, List.append_nil]
  rfl

/-- **Reading is local.** If the report of what stands in front is empty, the two parts of an input
are read one after the other: the elements are those of both, and the truncation, if there is one,
is that of the second part, its offset counted from the start of the whole. So anything may follow
what was written for a script that reading can give. -/
theorem decode_append :
    (∀ front bytes : Bytes, (decode front).log = [] →
      (decode (front ++ bytes)).script = (decode front).script ++ (decode bytes).script ∧
      (decode (front ++ bytes)).truncation =
        (decode bytes).truncation.map (·.behind front.length)) ∧
    ∀ (script : Script) (bytes : Bytes), (∃ source, (decode source).script = script) →
      (decode (encode script ++ bytes)).script = script ++ (decode bytes).script ∧
      (decode (encode script ++ bytes)).truncation =
        (decode bytes).truncation.map (·.behind (encode script).length) := by
  refine ⟨fun front bytes hlog => ?_, ?_⟩
  · rw [decode_append_of_not_truncated (Decoded.log_eq_nil_iff.1 hlog)]
    exact ⟨rfl, rfl⟩
  · rintro _ bytes ⟨source, rfl⟩
    rw [decode_encode_append (canonical_of_mem_decode source)]
    exact ⟨rfl, rfl⟩

/-- Behind a push with a length field of its own, an input that ends within the next length field:
the offset of that field counts the four bytes in front. Behind what is written for the same push
it counts three. -/
theorem decode_append_pushData1 :
    let front : Bytes := [0x4c, 0x02, 0xaa, 0xbb]
    let bytes : Bytes := [0x76, 0x4d, 0x01]
    let script : Script := [.data [0xaa, 0xbb]]
    ((decode front).log = [] ∧
      (decode (front ++ bytes)).script = script ++ [.op .dup, .data []] ∧
      (decode (front ++ bytes)).truncation = some (.lengthField 6)) ∧
    (decode front).script = script ∧
      (decode (encode script ++ bytes)).script = script ++ [.op .dup, .data []] ∧
      (decode (encode script ++ bytes)).truncation = some (.lengthField 5) := by
  intro front bytes script
  have hfront : decode front = ⟨script, none⟩ := by cbv
  have hbytes : decode bytes = ⟨[.op .dup, .data []], some (.lengthField 2)⟩ := by cbv
  have hlog : (decode front).log = [] := by rw [hfront]; rfl
  have hsource : (decode front).script = script := by rw [hfront]
  obtain ⟨hscript, htruncation⟩ := decode_append.1 front bytes hlog
  obtain ⟨hwritten, hcut⟩ := decode_append.2 script bytes ⟨front, hsource⟩
  rw [hscript, htruncation, hwritten, hcut, hfront, hbytes]
  exact ⟨⟨rfl, rfl, rfl⟩, rfl, rfl, rfl⟩

/-! ## Where an input is cut off -/

/-- What is read of an input that has been cut off, against what is read of the whole: the first
`kept` elements are the same, and behind them comes nothing, or a push that has lost bytes at its
end. -/
def CutOff (short long : Script) : Prop :=
  ∃ kept ≤ long.length, short = long.take kept ∨
    ∃ payload payload', short = long.take kept ++ [.data payload] ∧
      long[kept]? = some (.data payload') ∧ payload <+: payload'

namespace CutOff

/-- Nothing may be left. -/
theorem nil (long : Script) : CutOff [] long := ⟨0, Nat.zero_le _, .inl rfl⟩

/-- The cut may fall in the first push. -/
theorem data {payload payload' : Bytes} (h : payload <+: payload') (long : Script) :
    CutOff [.data payload] (.data payload' :: long) :=
  ⟨0, Nat.zero_le _, .inr ⟨payload, payload', rfl, rfl, h⟩⟩

/-- The cut may fall behind the first element. -/
theorem cons {short long : Script} (h : CutOff short long) (element : Element) :
    CutOff (element :: short) (element :: long) := by
  obtain ⟨kept, hle, rfl | ⟨payload, payload', rfl, hget, hprefix⟩⟩ := h
  · exact ⟨kept + 1, Nat.succ_le_succ hle, .inl rfl⟩
  · refine ⟨kept + 1, Nat.succ_le_succ hle, .inr ⟨payload, payload', rfl, ?_, hprefix⟩⟩
    rw [List.getElem?_cons_succ, hget]

end CutOff

/-- An input that is cut off within a header is empty or is read as the empty push. -/
theorem script_decode_take_header {width length : Nat} {header : Bytes}
    (h : Header width length header) {k : Nat} (hk : k < header.length) :
    (decode (header.take k)).script = [] ∨ (decode (header.take k)).script = [.data []] := by
  cases k with
  | zero => exact .inl (by simp)
  | succ k =>
    cases h with
    | direct hbyte => exact absurd hk (by simp)
    | @sized op width field hop hfield =>
      rw [List.length_cons, hfield] at hk
      refine .inr (script_decode_cutLength hop ?_)
      rw [List.length_take]
      omega

/-- An input that is cut off within its first push is empty or is read as a beginning of that
push. -/
theorem cutOff_take_push {width wanted : Nat} {header : Bytes} (h : Header width wanted header)
    {k : Nat} (hk : k < header.length + wanted) (payload : Bytes) (later : Script) :
    CutOff (decode ((header ++ payload).take k)).script (.data payload :: later) := by
  rcases Nat.lt_or_ge k header.length with hheader | hheader
  · rw [List.take_append_of_le_length hheader.le]
    rcases script_decode_take_header h hheader with hnil | hdata
    · rw [hnil]
      exact .nil _
    · rw [hdata]
      exact .data List.nil_prefix later
  · have htake : (header ++ payload).take k = header ++ payload.take (k - header.length) := by
      rw [List.take_append, List.take_of_length_le hheader]
    have hcut : (payload.take (k - header.length)).length < wanted := by
      rw [List.length_take]
      omega
    rw [htake, script_decode_cutPayload h hcut]
    exact .data (List.take_prefix _ _) later

/-- **Cutting damages one element at most.** Wherever an input is cut off, its first elements are
read as they are in the whole. Behind them comes nothing, or a beginning of the next element if that
is a push. -/
theorem decode_take (bytes : Bytes) (k : Nat) :
    ∃ kept ≤ (decode bytes).script.length,
      (decode (bytes.take k)).script = (decode bytes).script.take kept ∨
      ∃ payload payload',
        (decode (bytes.take k)).script = (decode bytes).script.take kept ++ [.data payload] ∧
        (decode bytes).script[kept]? = some (.data payload') ∧ payload <+: payload' := by
  change CutOff (decode (bytes.take k)).script (decode bytes).script
  -- By what the whole begins with: either the cut falls in that item, or the item is read as it is
  -- and the cut falls in the rest.
  induction bytes using input_induction generalizing k with
  | empty =>
    rw [List.take_nil, script_decode_nil]
    exact .nil []
  | @single byte element rest h ih =>
    cases k with
    | zero => rw [List.take_zero, script_decode_nil]; exact .nil _
    | succ k =>
      rw [List.take_succ_cons, script_decode_single h, script_decode_single h]
      exact (ih k).cons element
  | @push width header payload rest h ih =>
    rw [script_decode_push h]
    rcases Nat.lt_or_ge k (header.length + payload.length) with hk | hk
    · rw [← List.append_assoc, List.take_append_of_le_length (by rw [List.length_append]; omega)]
      exact cutOff_take_push h hk payload _
    · have htake : (header ++ (payload ++ rest)).take k =
          header ++ (payload ++ rest.take (k - (header.length + payload.length))) := by
        rw [← List.append_assoc, ← List.append_assoc, List.take_append,
          List.take_of_length_le (by rw [List.length_append]; omega), List.length_append]
      rw [htake, script_decode_push h]
      exact (ih _).cons _
  | @cutPayload width wanted header payload h hcut =>
    rw [script_decode_cutPayload h hcut]
    -- The whole ends before the push does, so a cut behind the push takes nothing away.
    rcases Nat.lt_or_ge k (header.length + wanted) with hk | hk
    · exact cutOff_take_push h hk payload []
    · rw [List.take_of_length_le (by rw [List.length_append]; omega),
        script_decode_cutPayload h hcut]
      exact .data List.prefix_rfl []
  | @cutLength op width field hop hcut =>
    rw [script_decode_cutLength hop hcut]
    cases k with
    | zero => rw [List.take_zero, script_decode_nil]; exact .nil _
    | succ k =>
      rw [List.take_succ_cons, script_decode_cutLength hop (by rw [List.length_take]; omega)]
      exact .data List.prefix_rfl []

end Wire

end UtxoScript
