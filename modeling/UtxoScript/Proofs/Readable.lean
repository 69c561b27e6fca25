import Mathlib.Data.List.Forall2
import UtxoScript.Proofs.Text.Decimal
import UtxoScript.Proofs.Text.Hex
import UtxoScript.Readable

/-!
# What a readable script tells

A readable script does not say of its tokens what kind of element they stand for, and seven small
integers are written like pushes of one byte: `10` is the integer ten, and the push of the byte
`0x10`. The main statement, `readable_eq_iff`, says that nothing else is lost. Scripts that read the
same have as many elements, and they differ at most in places where one of them has one of the seven
integers and the other has the push that is written like it.

A token is known by its letters: bytes without a name are the only tokens with an `x` in them, and
opcodes the only ones with an `O`. Pushes and integers consist of hexadecimal digits, and their
numbers of digits tell the empty push and the integers below ten from the rest. No token has a
space, so the tokens are found between the spaces (`splitOn_readable`).
-/

namespace UtxoScript

/-- The two elements are the same, or one is a small integer from ten on and the other is the push
of the byte whose hexadecimal digits are the decimal digits of the integer. -/
inductive Element.ReadsAlike : Element → Element → Prop
  /-- The elements are the same. -/
  | same (element : Element) : ReadsAlike element element
  /-- The first is the integer. -/
  | number {n : SmallInt} {k : Nat} (hk : k ≤ 6) (hn : n.toNat = 10 + k) :
    ReadsAlike (.number n) (.data [UInt8.ofNat (0x10 + k)])
  /-- The first is the push. -/
  | data {n : SmallInt} {k : Nat} (hk : k ≤ 6) (hn : n.toNat = 10 + k) :
    ReadsAlike (.data [UInt8.ofNat (0x10 + k)]) (.number n)

/-! ## Letters -/

/-- Mnemonics have an `O` in them, and neither an `x` nor a space. -/
theorem Opcode.mem_mnemonic (op : Opcode) :
    'O' ∈ op.mnemonic.toList ∧ 'x' ∉ op.mnemonic.toList ∧ ' ' ∉ op.mnemonic.toList := by
  have hall : ∀ op ∈ Opcode.all,
      'O' ∈ op.mnemonic.toList ∧ 'x' ∉ op.mnemonic.toList ∧ ' ' ∉ op.mnemonic.toList := by
    decide +kernel
  exact hall op (Opcode.mem_all op)

/-- Different opcodes have different mnemonics. -/
theorem Opcode.mnemonic_injective : Function.Injective Opcode.mnemonic := by
  intro op op' h
  have hfound : Opcode.ofMnemonic? op.mnemonic = Opcode.ofMnemonic? op'.mnemonic :=
    congrArg Opcode.ofMnemonic? h
  simpa using hfound

/-- Small numbers are written in digits that hexadecimal has as well. -/
theorem toList_toString_subset : ∀ n ≤ 16, (toString n).toList ⊆ Text.Hex.digits := by decide

namespace Element

/-- A push is written in hexadecimal digits. -/
theorem readable_data_subset (bytes : Bytes) :
    (Element.data bytes).readable.toList ⊆ Text.Hex.digits := by
  cases bytes with
  | nil => decide
  | cons byte rest => exact Text.Hex.toList_encode_subset (byte :: rest)

/-- A small integer is written in hexadecimal digits. -/
theorem readable_number_subset (n : SmallInt) :
    (Element.number n).readable.toList ⊆ Text.Hex.digits :=
  toList_toString_subset n.toNat n.toNat_bounds.2

/-- A byte without a name is written behind `0x`. -/
theorem toList_readable_raw (byte : UInt8) :
    (Element.raw byte).readable.toList = '0' :: 'x' :: (Text.Hex.encode [byte]).toList := by
  rw [readable, String.toList_append]
  rfl

/-- A byte without a name is written in hexadecimal digits and an `x`. -/
theorem readable_raw_subset (byte : UInt8) :
    (Element.raw byte).readable.toList ⊆ 'x' :: Text.Hex.digits := by
  have hdigits := List.subset_cons_of_subset 'x' (Text.Hex.toList_encode_subset [byte])
  rw [toList_readable_raw, List.cons_subset, List.cons_subset]
  exact ⟨by decide, List.mem_cons_self, hdigits⟩

/-- A token with an `x` in it stands for a byte without a name. -/
theorem x_mem_readable_iff {element : Element} :
    'x' ∈ element.readable.toList ↔ ∃ byte, element = .raw byte := by
  have hx : 'x' ∉ Text.Hex.digits := by decide
  cases element with
  | data bytes => exact iff_of_false (fun h => hx (readable_data_subset bytes h)) (by simp)
  | number n => exact iff_of_false (fun h => hx (readable_number_subset n h)) (by simp)
  | op op => exact iff_of_false op.mem_mnemonic.2.1 (by simp)
  | raw byte =>
    refine iff_of_true ?_ ⟨byte, rfl⟩
    rw [toList_readable_raw]
    exact List.mem_cons_of_mem _ List.mem_cons_self

/-- A token with an `O` in it stands for an opcode. -/
theorem o_mem_readable_iff {element : Element} :
    'O' ∈ element.readable.toList ↔ ∃ op, element = .op op := by
  have ho : 'O' ∉ Text.Hex.digits := by decide
  have ho' : 'O' ∉ 'x' :: Text.Hex.digits := by decide
  cases element with
  | data bytes => exact iff_of_false (fun h => ho (readable_data_subset bytes h)) (by simp)
  | number n => exact iff_of_false (fun h => ho (readable_number_subset n h)) (by simp)
  | op op => exact iff_of_true op.mem_mnemonic.1 ⟨op, rfl⟩
  | raw byte => exact iff_of_false (fun h => ho' (readable_raw_subset byte h)) (by simp)

/-- No token has a space in it. -/
theorem space_notMem_readable (element : Element) : ' ' ∉ element.readable.toList := by
  have hspace : ' ' ∉ Text.Hex.digits := by decide
  have hspace' : ' ' ∉ 'x' :: Text.Hex.digits := by decide
  cases element with
  | data bytes => exact fun h => hspace (readable_data_subset bytes h)
  | number n => exact fun h => hspace (readable_number_subset n h)
  | op op => exact op.mem_mnemonic.2.2
  | raw byte => exact fun h => hspace' (readable_raw_subset byte h)

/-! ## Tokens -/

/-- A push that is not empty is written in hexadecimal. -/
theorem readable_data_of_ne_nil {bytes : Bytes} (h : bytes ≠ []) :
    (Element.data bytes).readable = Text.Hex.encode bytes := by
  rw [readable, if_neg (by simpa using h)]

/-- The empty push is written like no other. -/
theorem readable_data_eq_zero_iff {bytes : Bytes} :
    (Element.data bytes).readable = "0" ↔ bytes = [] := by
  by_cases h : bytes = []
  · subst h
    exact iff_of_true rfl rfl
  · refine iff_of_false (fun heq => ?_) h
    rw [readable_data_of_ne_nil h] at heq
    have hlen := Text.Hex.length_toList_encode bytes
    rw [heq] at hlen
    have hone : "0".toList.length = 1 := rfl
    omega

/-- Different pushes are written differently. -/
theorem data_readable_inj {bytes bytes' : Bytes} :
    (Element.data bytes).readable = (Element.data bytes').readable ↔ bytes = bytes' := by
  refine ⟨fun heq => ?_, congrArg fun bytes => (Element.data bytes).readable⟩
  by_cases h : bytes = []
  · subst h
    exact (readable_data_eq_zero_iff.1 heq.symm).symm
  · by_cases h' : bytes' = []
    · subst h'
      exact readable_data_eq_zero_iff.1 heq
    · rw [readable_data_of_ne_nil h, readable_data_of_ne_nil h'] at heq
      exact Text.Hex.encode_injective heq

/-- The integers from ten on are written like the push of a byte. -/
theorem toString_eq_readable_data :
    ∀ k ≤ 6, toString (10 + k) = (Element.data [UInt8.ofNat (0x10 + k)]).readable := by
  decide

/-- The integers below ten are written in a single digit, which is not `0`. -/
theorem toString_of_lt_ten :
    ∀ n < 10, 1 ≤ n → (toString n).toList.length = 1 ∧ toString n ≠ "0" := by
  decide

/-- A small integer is written like a push only if it is ten or more, and the push is the one byte
with its digits. -/
theorem number_readable_eq_data_iff {n : SmallInt} {bytes : Bytes} :
    (Element.number n).readable = (Element.data bytes).readable ↔
      ∃ k ≤ 6, n.toNat = 10 + k ∧ bytes = [UInt8.ofNat (0x10 + k)] := by
  obtain ⟨hone, hsixteen⟩ := n.toNat_bounds
  by_cases hten : n.toNat < 10
  · refine iff_of_false (fun heq => ?_) (by omega)
    obtain ⟨hlen, hzero⟩ := toString_of_lt_ten n.toNat hten hone
    have htext : toString n.toNat = (Element.data bytes).readable := heq
    by_cases h : bytes = []
    · subst h
      exact hzero htext
    · rw [htext, readable_data_of_ne_nil h, Text.Hex.length_toList_encode] at hlen
      omega
  · obtain ⟨k, hk⟩ := Nat.exists_eq_add_of_le (Nat.le_of_not_lt hten)
    have hle : k ≤ 6 := by omega
    have htext : (Element.number n).readable =
        (Element.data [UInt8.ofNat (0x10 + k)]).readable := by
      rw [← toString_eq_readable_data k hle, ← hk]
      rfl
    rw [htext, data_readable_inj]
    constructor
    · intro h
      exact ⟨k, hle, hk, h.symm⟩
    · rintro ⟨k', -, hk', rfl⟩
      rw [show k' = k by omega]

/-- Different bytes without names are written differently. -/
theorem raw_readable_inj {byte byte' : UInt8} :
    (Element.raw byte).readable = (Element.raw byte').readable ↔ byte = byte' := by
  refine ⟨fun h => ?_, congrArg fun byte => (Element.raw byte).readable⟩
  rw [readable, readable, String.append_right_inj] at h
  exact List.singleton_inj.1 (Text.Hex.encode_injective h)

/-- Elements are written alike exactly if they are the same, or a small integer from ten on and the
push of its digits. -/
theorem readable_inj_iff {a b : Element} : a.readable = b.readable ↔ a.ReadsAlike b := by
  constructor
  · intro h
    have hx : (∃ byte, a = .raw byte) ↔ ∃ byte, b = .raw byte := by
      rw [← x_mem_readable_iff, ← x_mem_readable_iff, h]
    have ho : (∃ op, a = .op op) ↔ ∃ op, b = .op op := by
      rw [← o_mem_readable_iff, ← o_mem_readable_iff, h]
    cases a with
    | raw byte =>
      obtain ⟨byte', rfl⟩ := hx.1 ⟨byte, rfl⟩
      rw [raw_readable_inj.1 h]
      exact .same _
    | op op =>
      obtain ⟨op', rfl⟩ := ho.1 ⟨op, rfl⟩
      rw [Opcode.mnemonic_injective h]
      exact .same _
    | data bytes =>
      cases b with
      | data bytes' =>
        rw [data_readable_inj.1 h]
        exact .same _
      | number n =>
        obtain ⟨k, hk, hn, rfl⟩ := number_readable_eq_data_iff.1 h.symm
        exact .data hk hn
      | op op => simp at ho
      | raw byte => simp at hx
    | number n =>
      cases b with
      | data bytes =>
        obtain ⟨k, hk, hn, rfl⟩ := number_readable_eq_data_iff.1 h
        exact .number hk hn
      | number n' =>
        have hvalue : toString n.toNat = toString n'.toNat := h
        rw [SmallInt.toNat_inj.1 (Text.toString_inj.1 hvalue)]
        exact .same _
      | op op => simp at ho
      | raw byte => simp at hx
  · rintro (_ | ⟨hk, hn⟩ | ⟨hk, hn⟩)
    · rfl
    · exact number_readable_eq_data_iff.2 ⟨_, hk, hn, rfl⟩
    · exact (number_readable_eq_data_iff.2 ⟨_, hk, hn, rfl⟩).symm

/-- No token is empty. -/
theorem toList_readable_ne_nil (element : Element) : element.readable.toList ≠ [] := by
  cases element with
  | data bytes =>
    by_cases h : bytes = []
    · subst h
      decide
    · have hlen := Text.Hex.length_toList_encode bytes
      rw [readable_data_of_ne_nil h, ← List.length_pos_iff, hlen]
      have hpos := List.length_pos_iff.2 h
      omega
  | number n => exact Text.toList_toString_ne_nil n.toNat
  | op op => exact List.ne_nil_of_mem op.mem_mnemonic.1
  | raw byte =>
    rw [toList_readable_raw]
    exact List.cons_ne_nil _ _

end Element

/-! ## Scripts -/

/-- The tokens of a script that is not empty are what stands between the spaces. -/
theorem splitOn_readable {script : Script} (h : script ≠ []) :
    (readable script).toList.splitOn ' ' =
      script.map fun element => element.readable.toList := by
  have hspace : ∀ token ∈ script.map (fun element => element.readable.toList), ' ' ∉ token := by
    rw [List.forall_mem_map]
    exact fun element _ => element.space_notMem_readable
  rw [readable, String.toList_intercalate, List.map_map]
  exact List.splitOn_intercalate ' ' hspace (by simpa using h)

/-- A script that is not empty has a text. -/
theorem readable_ne_empty {script : Script} (h : script ≠ []) : readable script ≠ "" := by
  intro hempty
  have htokens : "".toList.splitOn ' ' = script.map fun element => element.readable.toList := by
    rw [← hempty]
    exact splitOn_readable h
  -- The empty text has one token, and it is empty.
  have hnil : [] ∈ script.map fun element => element.readable.toList := by
    rw [← htokens]
    exact List.mem_singleton_self []
  obtain ⟨element, -, helement⟩ := List.mem_map.1 hnil
  exact element.toList_readable_ne_nil helement

/-- Scripts read the same if their elements do, and only then. -/
theorem readable_eq_iff_map {x y : Script} :
    readable x = readable y ↔ x.map Element.readable = y.map Element.readable := by
  refine ⟨fun h => ?_, congrArg (" ".intercalate ·)⟩
  by_cases hx : x = []
  · subst hx
    by_cases hy : y = []
    · rw [hy]
    · exact absurd h.symm (readable_ne_empty hy)
  · by_cases hy : y = []
    · subst hy
      exact absurd h (readable_ne_empty hx)
    · have htokens : (x.map Element.readable).map String.toList =
          (y.map Element.readable).map String.toList := by
        rw [List.map_map, List.map_map]
        exact (splitOn_readable hx).symm.trans (h ▸ splitOn_readable hy)
      exact List.map_injective_iff.2 (fun _ _ => String.toList_inj.1) htokens

/-- What a readable script tells. Two scripts read the same exactly if they have as many elements
and in every place the elements are the same, or one is a small integer from ten on and the other
the push of the byte with its digits. A script that is not empty has a text, in which as many tokens
stand between spaces as the script has elements. -/
theorem readable_eq_iff (x y : Script) :
    (readable x = readable y ↔ List.Forall₂ Element.ReadsAlike x y) ∧
    (x ≠ [] → readable x ≠ "" ∧ ((readable x).toList.splitOn ' ').length = x.length) := by
  refine ⟨?_, fun h => ⟨readable_ne_empty h, ?_⟩⟩
  · rw [readable_eq_iff_map, ← List.forall₂_eq_eq_eq, List.forall₂_map_left_iff,
      List.forall₂_map_right_iff]
    simp only [Element.readable_inj_iff]
  · rw [splitOn_readable h, List.length_map]

/-- The integer twelve and a push of one byte read the same. -/
example :
    (SmallInt.ofNat? 12).map (fun n => readable [.data [], .number n]) =
      some (readable [.data [], .data [0x12]]) := by
  decide

end UtxoScript
