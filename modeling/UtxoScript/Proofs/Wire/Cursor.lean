import UtxoScript.Proofs.Wire.Truncation

/-!
# Reading by position

`decode` takes the input apart from the front. Here the same is done by a cursor, a position in an
input that stays as it is: a round looks up the byte at the cursor, takes the bytes of a push as a
range of the input, and moves the cursor on. Lengths on the wire may be chosen to lead astray, and
so nothing is taken for granted: a range that does not lie in the input and a difference below zero
are faults (`none`).

The main statement, `decode_within_bounds`, says that there never is a fault, that every round moves
the cursor on and leaves it in the input, so that there are no more rounds than bytes, and that the
elements and the reports of all rounds are those of `decode`. It goes on to say what the reports
mean. The proof ties a round to `readItem`: `Item.round` is where an item ends, told from the bytes
that are left behind it, and `roundAt?_append` says that a round finds the same by position.
-/

namespace UtxoScript

namespace Wire

/-! ## Rounds -/

/-- The bytes from `start` up to `stop`. It is a fault if the range does not lie in the input. -/
def slice? (bytes : Bytes) (start stop : Nat) : Option Bytes :=
  if start ≤ stop ∧ stop ≤ bytes.length then some ((bytes.drop start).take (stop - start)) else none

/-- How far it is from `start` to `stop`. It is a fault if `stop` comes first. -/
def distance? (start stop : Nat) : Option Nat :=
  if start ≤ stop then some (stop - start) else none

/-- What one round does. -/
structure Round where
  /-- The element that is read. -/
  element : Element
  /-- Where the cursor stands afterwards. -/
  next : Nat
  /-- What is reported. -/
  report : Option Truncation
  /-- Whether reading is broken off, wherever the cursor stands. -/
  last : Bool

/-- The round that reads a push of `wanted` bytes that begin at `start`. -/
def pushAt? (bytes : Bytes) (start wanted : Nat) : Option Round := do
  let stop := min (start + wanted) bytes.length
  let present ← distance? start stop
  let payload ← slice? bytes start stop
  let report := if present < wanted then some (.payload start wanted present) else none
  return ⟨.data payload, stop, report, false⟩

/-- The round that reads a push behind a length field of `width` bytes at `start`. A length field
that is not complete is no fault, but breaks reading off. -/
def sizedPushAt? (bytes : Bytes) (start width : Nat) : Option Round :=
  match slice? bytes start (start + width) with
  | none => some ⟨.data [], start, some (.lengthField start), true⟩
  | some field => pushAt? bytes (start + width) (Bytes.toNatLE field)

/-- The round at a position of the input. -/
def roundAt? (bytes : Bytes) (position : Nat) : Option Round := do
  let byte ← bytes[position]?
  let start := position + 1
  if byte.toNat ≤ maxDirectPush then pushAt? bytes start byte.toNat
  else
    match SmallInt.ofWire? byte, Opcode.ofByte? byte with
    | some n, _ => return ⟨.number n, start, none, false⟩
    | none, none => return ⟨.raw byte, start, none, false⟩
    | none, some op =>
      match lengthWidth? op with
      | some width => sizedPushAt? bytes start width
      | none => return ⟨.op op, start, none, false⟩

/-- How far reading has come. -/
structure Cursor where
  /-- The position of the next round. -/
  position : Nat
  /-- The elements that have been read. -/
  script : Script
  /-- What has been reported. -/
  reports : List Truncation
  /-- Whether reading has been broken off. -/
  broken : Bool

namespace Cursor

/-- Where reading begins. -/
def start : Cursor := ⟨0, [], [], false⟩

/-- There is another round. -/
def Running (bytes : Bytes) (c : Cursor) : Prop := c.broken = false ∧ c.position < bytes.length

instance (bytes : Bytes) (c : Cursor) : Decidable (c.Running bytes) :=
  inferInstanceAs (Decidable (c.broken = false ∧ c.position < bytes.length))

/-- The cursor after a round. -/
def after (c : Cursor) (r : Round) : Cursor :=
  ⟨r.next, c.script ++ [r.element], c.reports ++ r.report.toList, r.last⟩

/-- The cursor after the round that is next. -/
def next? (bytes : Bytes) (c : Cursor) : Option Cursor := (roundAt? bytes c.position).map c.after

/-- The cursor after as many rounds as there are, but no more than `n`. -/
def run? (bytes : Bytes) : (n : Nat) → Cursor → Option Cursor
  | 0, c => some c
  | n + 1, c => if c.Running bytes then (c.next? bytes).bind (run? bytes n) else some c

end Cursor

/-! ## A round reads an item -/

/-- The round that reads the item, in an input of `size` bytes that ends in the item and what is
left behind it. -/
def Item.round (size : Nat) : Item → Round
  | .complete element rest => ⟨element, size - rest.length, none, false⟩
  | .cutPayload wanted payload =>
    ⟨.data payload, size, some (.payload (size - payload.length) wanted payload.length), false⟩
  | .cutLength field =>
    ⟨.data [], size - field.length, some (.lengthField (size - field.length)), true⟩

/-- The bytes behind the cursor when the item has been read. -/
def Item.left : Item → Bytes
  | .complete _ rest => rest
  | .cutPayload _ _ => []
  | .cutLength field => field

/-- The cursor stands in front of what is left. -/
theorem Item.next_round (item : Item) (size : Nat) :
    (item.round size).next = size - item.left.length := by
  cases item <;> rfl

/-- What is left behind a push is an end of the bytes it was taken from. -/
theorem left_takePush_suffix (length : Nat) (bytes : Bytes) :
    (takePush length bytes).left <:+ bytes := by
  rw [takePush]
  split
  · exact List.nil_suffix
  · exact List.drop_suffix length bytes

/-- What is left behind an item is an end of the bytes behind its first byte. -/
theorem left_readItem_suffix (byte : UInt8) (bytes : Bytes) :
    (readItem byte bytes).left <:+ bytes := by
  obtain hbyte | ⟨op, width, hop, rfl⟩ | ⟨element, hsingle⟩ := byte_cases byte
  · rw [readItem_direct hbyte]
    exact left_takePush_suffix _ _
  · rw [readItem_sized hop, takeSizedPush]
    split
    · next hcut =>
      rw [List.length_take] at hcut
      have hall : bytes.take width = bytes := List.take_of_length_le (by omega)
      simp only [Item.left, hall, List.suffix_rfl]
    · exact (left_takePush_suffix _ _).trans (List.drop_suffix width bytes)
  · rw [readItem_single hsingle]
    exact List.suffix_rfl

/-- A range behind the bytes in front is a beginning of the others. -/
theorem slice?_append (front rest : Bytes) (n : Nat) :
    slice? (front ++ rest) front.length (front.length + n) =
      if n ≤ rest.length then some (rest.take n) else none := by
  rw [slice?, List.length_append, List.drop_left, Nat.add_sub_cancel_left]
  simp only [Nat.le_add_right, Nat.add_le_add_iff_left, true_and]

/-- A push is found by position as it is found from the front, and without a fault. -/
theorem pushAt?_append (front rest : Bytes) (wanted : Nat) :
    pushAt? (front ++ rest) front.length wanted =
      some ((takePush wanted rest).round (front ++ rest).length) := by
  have hstop : min (front.length + wanted) (front ++ rest).length =
      front.length + min wanted rest.length := by
    rw [List.length_append]
    omega
  have hdistance : distance? front.length (front.length + min wanted rest.length) =
      some (min wanted rest.length) := by
    rw [distance?, if_pos (Nat.le_add_right _ _), Nat.add_sub_cancel_left]
  have hslice := slice?_append front rest (min wanted rest.length)
  rw [if_pos (Nat.min_le_right _ _), ← List.take_eq_take_min] at hslice
  rw [pushAt?]
  simp only [hstop, hdistance, hslice, Option.bind_eq_bind, Option.bind_some]
  -- The push is clamped to the end of the input, or it ends before that.
  rcases Nat.lt_or_ge rest.length wanted with hcut | hle
  · have hmin : min wanted rest.length = rest.length := Nat.min_eq_right hcut.le
    rw [takePush, List.take_of_length_le hcut.le, if_pos hcut, hmin, if_pos hcut]
    simp [Item.round]
  · have hmin : min wanted rest.length = wanted := Nat.min_eq_left hle
    have hlength : (rest.take wanted).length = wanted := List.length_take_of_le hle
    rw [takePush, hlength, if_neg (Nat.lt_irrefl _), hmin, if_neg (Nat.lt_irrefl _)]
    have hnext : front.length + wanted = (front ++ rest).length - (rest.drop wanted).length := by
      rw [List.length_append, List.length_drop]
      omega
    rw [Item.round, ← hnext]
    rfl

/-- A push behind a length field is found by position as it is found from the front. -/
theorem sizedPushAt?_append (front rest : Bytes) (width : Nat) :
    sizedPushAt? (front ++ rest) front.length width =
      some ((takeSizedPush width rest).round (front ++ rest).length) := by
  rw [sizedPushAt?, slice?_append, takeSizedPush]
  rcases Nat.lt_or_ge rest.length width with hcut | hle
  · rw [if_neg (Nat.not_le.2 hcut), List.take_of_length_le hcut.le, if_pos hcut, Item.round,
      List.length_append, Nat.add_sub_cancel]
  · have hlength : (rest.take width).length = width := List.length_take_of_le hle
    have hsplit : front ++ rest = (front ++ rest.take width) ++ rest.drop width := by simp
    have hstart : front.length + width = (front ++ rest.take width).length := by
      rw [List.length_append, hlength]
    rw [if_pos hle, hlength, if_neg (Nat.lt_irrefl _), hsplit, hstart]
    exact pushAt?_append _ _ _

/-- **A round reads an item.** What is at the cursor is found by position as it is found from the
front, and without a fault. -/
theorem roundAt?_append (front : Bytes) (byte : UInt8) (rest : Bytes) :
    roundAt? (front ++ byte :: rest) front.length =
      some ((readItem byte rest).round (front ++ byte :: rest).length) := by
  have hbyte : (front ++ byte :: rest)[front.length]? = some byte := by simp
  have hsplit : front ++ byte :: rest = (front ++ [byte]) ++ rest := by simp
  have hstart : front.length + 1 = (front ++ [byte]).length := by simp
  have hend : (front ++ [byte]).length = (front ++ byte :: rest).length - rest.length := by
    simp only [List.length_append, List.length_cons, List.length_nil]
    omega
  rw [roundAt?, hbyte]
  simp only [Option.bind_eq_bind, Option.bind_some, hstart]
  -- The cases are those of `readItem`; an element of one byte leaves the cursor behind that byte.
  unfold readItem
  by_cases hdirect : byte.toNat ≤ maxDirectPush
  · rw [if_pos hdirect, if_pos hdirect, hsplit]
    exact pushAt?_append _ _ _
  rw [if_neg hdirect, if_neg hdirect]
  cases SmallInt.ofWire? byte with
  | some n => rw [hend]; rfl
  | none =>
    cases Opcode.ofByte? byte with
    | none => rw [hend]; rfl
    | some op =>
      cases hwidth : lengthWidth? op with
      | some width =>
        simp only [hwidth]
        rw [hsplit]
        exact sizedPushAt?_append _ _ _
      | none =>
        simp only [hwidth]
        rw [hend]
        rfl

/-! ## All rounds -/

namespace Cursor

variable {bytes : Bytes}

/-- The cursor stands in the input, and no more elements have been read than bytes lie behind it. -/
structure Within (bytes : Bytes) (c : Cursor) : Prop where
  /-- The cursor stands in the input or at its end. -/
  position_le : c.position ≤ bytes.length
  /-- Each element took a byte at least. -/
  length_le : c.script.length ≤ c.position

/-- A round is without fault, moves the cursor on and leaves it in the input. -/
theorem exists_next? {c : Cursor} (hwithin : c.Within bytes) (hrunning : c.Running bytes) :
    ∃ c', c.next? bytes = some c' ∧ c.position < c'.position ∧ c'.Within bytes := by
  have hlt : c.position < bytes.length := hrunning.2
  -- The input is told apart into what lies behind the cursor, the byte at it, and the rest.
  obtain ⟨front, byte, rest, rfl, hfront⟩ : ∃ front byte rest,
      bytes = front ++ byte :: rest ∧ front.length = c.position := by
    refine ⟨bytes.take c.position, bytes[c.position], bytes.drop (c.position + 1), ?_,
      List.length_take_of_le hlt.le⟩
    rw [← List.drop_eq_getElem_cons hlt, List.take_append_drop]
  have hleft := (left_readItem_suffix byte rest).length_le
  have hlength := hwithin.length_le
  have hnext : c.next? (front ++ byte :: rest) =
      some (c.after ((readItem byte rest).round (front ++ byte :: rest).length)) := by
    rw [next?, ← hfront, roundAt?_append]
    rfl
  have hposition : (c.after ((readItem byte rest).round (front ++ byte :: rest).length)).position =
      front.length + (rest.length + 1) - (readItem byte rest).left.length := by
    rw [after, Item.next_round, List.length_append, List.length_cons]
  refine ⟨_, hnext, by omega, ⟨?_, ?_⟩⟩
  · rw [hposition, List.length_append, List.length_cons]
    omega
  · rw [hposition, after, List.length_append, List.length_singleton]
    omega

/-- However many rounds there are, none has a fault. -/
theorem exists_run? (n : Nat) {c : Cursor} (hwithin : c.Within bytes) :
    ∃ c', c.run? bytes n = some c' ∧ c'.Within bytes := by
  induction n generalizing c with
  | zero => exact ⟨c, rfl, hwithin⟩
  | succ n ih =>
    rw [run?]
    split
    · next hrunning =>
      obtain ⟨c', hnext, -, hwithin'⟩ := exists_next? hwithin hrunning
      rw [hnext]
      exact ih hwithin'
    · exact ⟨c, rfl, hwithin⟩

/-- When there is no other round, nothing changes. -/
theorem run?_of_not_running {c : Cursor} (h : ¬ c.Running bytes) (n : Nat) :
    c.run? bytes n = some c := by
  cases n with
  | zero => rfl
  | succ n => rw [run?, if_neg h]

/-- The next `n` rounds are all there are, and they read `later`. -/
def Reads (bytes : Bytes) (n : Nat) (c : Cursor) (later : Decoded) : Prop :=
  ∃ c', c.run? bytes n = some c' ∧ ¬ c'.Running bytes ∧ c'.script = c.script ++ later.script ∧
    c'.reports = c.reports ++ later.truncation.toList

variable {c : Cursor} {r : Round} {later : Decoded} {n : Nat}

/-- When there is no other round, nothing is read. -/
theorem reads_of_not_running (h : ¬ c.Running bytes) : c.Reads bytes n ⟨[], none⟩ :=
  ⟨c, run?_of_not_running h n, h, (List.append_nil _).symm, (List.append_nil _).symm⟩

/-- The rounds that follow a round without a report. -/
theorem Reads.of_round (hrunning : c.Running bytes) (hround : roundAt? bytes c.position = some r)
    (hreport : r.report = none) (h : (c.after r).Reads bytes n later) :
    c.Reads bytes (n + 1) ⟨r.element :: later.script, later.truncation⟩ := by
  obtain ⟨c', hrun, hstop, hscript, hreports⟩ := h
  refine ⟨c', ?_, hstop, ?_, ?_⟩
  · rw [run?, if_pos hrunning, next?, hround]
    exact hrun
  · rw [hscript, after, List.append_assoc]
    rfl
  · rw [hreports, after, hreport, Option.toList_none, List.append_nil]

/-- The last round. -/
theorem reads_of_last_round (hrunning : c.Running bytes)
    (hround : roundAt? bytes c.position = some r) (hstop : ¬ (c.after r).Running bytes) :
    c.Reads bytes (n + 1) ⟨[r.element], r.report⟩ := by
  refine ⟨c.after r, ?_, hstop, rfl, rfl⟩
  rw [run?, if_pos hrunning, next?, hround]
  exact run?_of_not_running hstop n

end Cursor

/-- From any position, the rounds read what `decodeAfter` reads from there, and there are no more of
them than bytes. -/
theorem reads_append (front rest : Bytes) {n : Nat} (hn : rest.length ≤ n) (script : Script)
    (reports : List Truncation) :
    Cursor.Reads (front ++ rest) n ⟨front.length, script, reports, false⟩
      (decodeAfter (front ++ rest).length [] rest) := by
  -- By induction on the rounds that are allowed: each takes at least one byte off the rest.
  induction n generalizing front rest script reports with
  | zero =>
    obtain rfl : rest = [] := List.length_eq_zero_iff.1 (Nat.le_zero.1 hn)
    rw [decodeAfter]
    exact Cursor.reads_of_not_running (by simp [Cursor.Running])
  | succ n ih =>
    cases rest with
    | nil =>
      rw [decodeAfter]
      exact Cursor.reads_of_not_running (by simp [Cursor.Running])
    | cons byte rest =>
      have hrunning : Cursor.Running (front ++ byte :: rest)
          ⟨front.length, script, reports, false⟩ := ⟨rfl, by simp⟩
      have hround := roundAt?_append front byte rest
      have hsuffix := left_readItem_suffix byte rest
      cases hitem : readItem byte rest with
      | complete element rest' =>
        rw [hitem] at hround hsuffix
        obtain ⟨taken, rfl⟩ : ∃ taken, taken ++ rest' = rest := hsuffix
        rw [decodeAfter_complete hitem]
        refine Cursor.Reads.of_round hrunning hround rfl ?_
        -- The cursor stands behind the bytes of the item.
        have hsplit : front ++ byte :: (taken ++ rest') = (front ++ byte :: taken) ++ rest' := by
          simp
        have hnext : (front ++ byte :: (taken ++ rest')).length - rest'.length =
            (front ++ byte :: taken).length := by
          rw [hsplit, List.length_append, Nat.add_sub_cancel]
        rw [Cursor.after, Item.round, hnext, hsplit]
        refine ih (front ++ byte :: taken) rest' ?_ _ _
        rw [List.length_cons, List.length_append] at hn
        omega
      | cutPayload wanted payload =>
        rw [hitem] at hround
        rw [decodeAfter_of_cutPayload hitem]
        -- A payload that is cut off reaches to the end of the input, so there is no other round.
        refine Cursor.reads_of_last_round hrunning hround ?_
        simp [Cursor.Running, Cursor.after, Item.round]
      | cutLength field =>
        rw [hitem] at hround
        rw [decodeAfter_of_cutLength hitem]
        -- The cursor stays in front of the length field, but reading has been broken off.
        refine Cursor.reads_of_last_round hrunning hround ?_
        simp [Cursor.Running, Cursor.after, Item.round]

/-- **Reading within bounds.** Reading by position never has a fault: however many rounds there have
been, the cursor is in the input, and the round that is next, if there is one, moves it on and
leaves it in the input. After no more rounds than the input has bytes it is at an end, and it has
read what `decode` reads. There are no more elements than bytes, and one report at most. Without a
report the input is the complete forms of its elements, and only then. Where a payload is reported
as cut, fewer bytes are there than are wanted, they reach to the end of the input, and they are the
last push of the script. Where a length field is, the byte before it is the opcode that announces
it, fewer bytes are left than it has, and the last push of the script is empty. -/
theorem decode_within_bounds (bytes : Bytes) :
    (∀ n, ∃ c, Cursor.start.run? bytes n = some c ∧ c.position ≤ bytes.length ∧
      (c.Running bytes →
        ∃ c', c.next? bytes = some c' ∧ c.position < c'.position ∧
          c'.position ≤ bytes.length)) ∧
    (∃ c, Cursor.start.run? bytes bytes.length = some c ∧ ¬ c.Running bytes ∧
      c.script = (decode bytes).script ∧
      c.reports.map Truncation.message = (decode bytes).log) ∧
    (decode bytes).script.length ≤ bytes.length ∧
    (decode bytes).log.length ≤ 1 ∧
    ((decode bytes).log = [] ↔
      ∃ forms, List.Forall₂ CompleteForm (decode bytes).script forms ∧ bytes = forms.flatten) ∧
    (∀ offset wanted remaining,
      (Truncation.payload offset wanted remaining).message ∈ (decode bytes).log →
        remaining < wanted ∧ offset + remaining = bytes.length ∧
        (decode bytes).script.getLast? = some (.data (bytes.drop offset))) ∧
    (∀ offset, (Truncation.lengthField offset).message ∈ (decode bytes).log →
      0 < offset ∧ offset ≤ bytes.length ∧
      ((bytes[offset - 1]? = some 0x4c ∧ bytes.length - offset < 1) ∨
        (bytes[offset - 1]? = some 0x4d ∧ bytes.length - offset < 2) ∨
        (bytes[offset - 1]? = some 0x4e ∧ bytes.length - offset < 4)) ∧
      (decode bytes).script.getLast? = some (.data [])) := by
  have hstart : Cursor.start.Within bytes := ⟨Nat.zero_le _, le_rfl⟩
  obtain ⟨final, hrun, hstop, hscript, hreports⟩ := reads_append [] bytes le_rfl [] []
  change final.script = (decode bytes).script at hscript
  change final.reports = (decode bytes).truncation.toList at hreports
  refine ⟨fun n => ?_, ⟨final, hrun, hstop, hscript, ?_⟩, ?_, ?_, ?_, ?_, ?_⟩
  · obtain ⟨c, hc, hwithin⟩ := Cursor.exists_run? n hstart
    refine ⟨c, hc, hwithin.position_le, fun hrunning => ?_⟩
    obtain ⟨c', hnext, hlt, hwithin'⟩ := Cursor.exists_next? hwithin hrunning
    exact ⟨c', hnext, hlt, hwithin'.position_le⟩
  · rw [hreports, Decoded.log]
    cases (decode bytes).truncation <;> rfl
  · -- The cursor at the end has passed a byte for every element.
    obtain ⟨c, hc, hwithin⟩ := Cursor.exists_run? bytes.length hstart
    obtain rfl : c = final := Option.some.inj (hc.symm.trans hrun)
    rw [← hscript]
    exact hwithin.length_le.trans hwithin.position_le
  · exact Option.length_toList_le
  · rw [Decoded.log_eq_nil_iff]
    exact truncation_eq_none_iff bytes
  · intro offset wanted remaining hlog
    exact reports_of_truncation (Decoded.message_mem_log_iff.1 hlog)
  · intro offset hlog
    obtain ⟨⟨op, width, hop, hpos, hbyte, hle, hcut⟩, hlast⟩ :=
      reports_of_truncation (Decoded.message_mem_log_iff.1 hlog)
    refine ⟨hpos, hle, ?_, hlast⟩
    rcases lengthWidth?_eq_some hop with ⟨rfl, rfl⟩ | ⟨rfl, rfl⟩ | ⟨rfl, rfl⟩
    · exact .inl ⟨hbyte, hcut⟩
    · exact .inr (.inl ⟨hbyte, hcut⟩)
    · exact .inr (.inr ⟨hbyte, hcut⟩)

/-- A length of four bytes that claims more than there can be: the one byte behind it is the push.
And a length field of two bytes of which one is there. -/
theorem decode_within_bounds_cut :
    let payload : Bytes := [0x76, 0x4e, 0xff, 0xff, 0xff, 0xff, 0x01]
    let field : Bytes := [0x76, 0x4d, 0x01]
    ((Truncation.payload 6 4294967295 1).message ∈ (decode payload).log ∧
      1 < 4294967295 ∧ 6 + 1 = payload.length ∧
      (decode payload).script.getLast? = some (.data [0x01])) ∧
    (Truncation.lengthField 2).message ∈ (decode field).log ∧
      field[2 - 1]? = some 0x4d ∧ field.length - 2 < 2 ∧
      (decode field).script.getLast? = some (.data []) := by
  intro payload field
  have hpayload : decode payload =
      ⟨[.op .dup, .data [0x01]], some (.payload 6 4294967295 1)⟩ := by cbv
  have hfield : decode field = ⟨[.op .dup, .data []], some (.lengthField 2)⟩ := by cbv
  have hreport : (Truncation.payload 6 4294967295 1).message ∈ (decode payload).log :=
    Decoded.message_mem_log_iff.2 (by rw [hpayload])
  have hreport' : (Truncation.lengthField 2).message ∈ (decode field).log :=
    Decoded.message_mem_log_iff.2 (by rw [hfield])
  obtain ⟨-, -, -, -, -, hcut, -⟩ := decode_within_bounds payload
  obtain ⟨-, -, -, -, -, -, hcut'⟩ := decode_within_bounds field
  obtain ⟨-, -, hwhich, hlast⟩ := hcut' 2 hreport'
  refine ⟨⟨hreport, hcut 6 4294967295 1 hreport⟩, hreport', ?_⟩
  rcases hwhich with ⟨hbyte, -⟩ | ⟨hbyte, hfew⟩ | ⟨hbyte, -⟩
  · exact absurd hbyte (by decide)
  · exact ⟨hbyte, hfew, hlast⟩
  · exact absurd hbyte (by decide)

end Wire

end UtxoScript
