import UtxoScript.Opcode.Name
import UtxoScript.Proofs.Template
import UtxoScript.Proofs.Text.Decimal
import UtxoScript.Proofs.Wire.Locality

/-!
# What names stand for

The names of small integers are `OP_`, one plus sign or none, any number of zeros, and the shortest
digits of a number from one to sixteen (`smallIntOfName?_eq_some_iff`). No mnemonic is among them
(`smallIntOfName?_mnemonic`), so a name stands for one thing at most. The main statement,
`names_fit_wire`, adds that the byte of a name is read as what the name stands for, and that this is
written as the byte, unless the byte announces a push.
-/

namespace UtxoScript.Opcode

/-! ## Small integers -/

/-- Digits stand behind a plus sign or alone. -/
theorem afterPlus_eq_iff {chars digits : List Char} (hdigits : ∀ c ∈ digits, c.isDigit = true) :
    afterPlus chars = digits ↔ chars = digits ∨ chars = '+' :: digits := by
  unfold afterPlus
  split
  · next rest =>
    have hplus : '+' :: rest ≠ digits := by
      rintro rfl
      exact absurd (hdigits '+' List.mem_cons_self) (by decide)
    rw [List.cons.injEq]
    exact ⟨fun h => .inr ⟨rfl, h⟩, fun h => (h.resolve_left hplus).2⟩
  · next hchars =>
    exact ⟨.inl, fun h => h.resolve_right (hchars digits)⟩

/-- The digits of a small integer, with a plus sign or without, are what is read as one. -/
theorem smallInt_afterPlus_eq_some_iff {chars : List Char} {n : SmallInt} :
    (Text.Decimal.below? UInt8.size (afterPlus chars)).bind SmallInt.ofNat? = some n ↔
      ∃ plus ∈ [[], ['+']], ∃ zeros,
        chars = plus ++ (List.replicate zeros '0' ++ (toString n.toNat).toList) := by
  have hlt : n.toNat < UInt8.size := n.val.toNat_lt
  have hbelow :
      (Text.Decimal.below? UInt8.size (afterPlus chars)).bind SmallInt.ofNat? = some n ↔
        Text.Decimal.read? (afterPlus chars) = some n.toNat := by
    rw [Option.bind_eq_some_iff]
    constructor
    · rintro ⟨k, hk, hn⟩
      rw [SmallInt.ofNat?_eq_some_iff.1 hn]
      exact (Text.Decimal.below?_eq_some_iff.1 hk).1
    · intro h
      exact ⟨n.toNat, Text.Decimal.below?_eq_some_iff.2 ⟨h, hlt⟩,
        SmallInt.ofNat?_eq_some_iff.2 rfl⟩
  rw [hbelow, Text.Decimal.read?_eq_some_iff]
  simp only [afterPlus_eq_iff Text.Decimal.isDigit_of_mem_zeros_append, List.mem_cons,
    List.not_mem_nil, or_false, exists_eq_or_imp, exists_eq_left, exists_or, List.nil_append,
    List.cons_append]

/-- The names of a small integer. -/
theorem smallIntOfName?_eq_some_iff {name : String} {n : SmallInt} :
    smallIntOfName? name = some n ↔
      ∃ plus ∈ ["", "+"], ∃ zeros,
        name = "OP_" ++ plus ++ String.ofList (List.replicate zeros '0') ++ toString n.toNat := by
  have hname (text : String) :
      name = "OP_" ++ text ↔ name.toList = 'O' :: 'P' :: '_' :: text.toList := by
    rw [← String.toList_inj, String.toList_append]
    rfl
  simp only [String.append_assoc, hname, String.toList_append, String.toList_ofList]
  unfold smallIntOfName?
  split
  · next chars hchars =>
    rw [smallInt_afterPlus_eq_some_iff]
    simp only [hchars, List.cons.injEq, true_and, List.mem_cons, List.not_mem_nil, or_false,
      exists_eq_or_imp, exists_eq_left]
    rfl
  · next hother =>
    refine iff_of_false (by simp) ?_
    rintro ⟨plus, -, zeros, h⟩
    exact hother _ h

/-- No mnemonic is the name of a small integer. -/
theorem smallIntOfName?_mnemonic (op : Opcode) : smallIntOfName? op.mnemonic = none := by
  have hall : ∀ op ∈ all, smallIntOfName? op.mnemonic = none := by decide +kernel
  exact hall op (mem_all op)

/-! ## Elements -/

/-- A name stands for an element. -/
inductive Names (name : String) : Element → Prop
  /-- The name is the mnemonic of the opcode. -/
  | op {op : Opcode} (h : ofMnemonic? name = some op) : Names name (.op op)
  /-- The name is one of the small integer. -/
  | number {n : SmallInt} (h : smallIntOfName? name = some n) : Names name (.number n)

/-- A name that stands for a byte stands for an element that is written as the byte, and reading can
give the element unless the byte announces a push. -/
theorem exists_names_of_byteOfName? {name : String} {byte : UInt8}
    (h : byteOfName? name = some byte) :
    ∃ element, Names name element ∧ Wire.encode [element] = [byte] ∧
      (byte ∉ [pushData1.byte, pushData2.byte, pushData4.byte] → element.Canonical) := by
  unfold byteOfName? at h
  split at h
  · next op hop =>
    cases h
    refine ⟨.op op, .op hop, rfl, ?_⟩
    intro hpush
    -- The three opcodes that are no element of their own have the excluded bytes.
    refine ⟨?_, ?_, ?_⟩
    · rintro rfl
      exact hpush (by decide)
    · rintro rfl
      exact hpush (by decide)
    · rintro rfl
      exact hpush (by decide)
  · obtain ⟨n, hn, rfl⟩ := Option.map_eq_some_iff.1 h
    exact ⟨.number n, .number hn, rfl, fun _ => trivial⟩

/-- **Names agree with the wire.** A name is one of a small integer exactly if it is `OP_`, one plus
sign or none, any number of zeros, and the digits of a number from one to sixteen. No name is such a
name and a mnemonic. The byte that a name stands for is read as the one element that the name stands
for, and the element is written as the byte, unless the byte is one of the three that announce a
push. -/
theorem names_fit_wire (name : String) :
    (∀ n : Nat, (smallIntOfName? name).map SmallInt.toNat = some n ↔
      (1 ≤ n ∧ n ≤ 16) ∧ ∃ plus ∈ ["", "+"], ∃ zeros,
        name = "OP_" ++ plus ++ String.ofList (List.replicate zeros '0') ++ toString n) ∧
    (ofMnemonic? name = none ∨ smallIntOfName? name = none) ∧
    ∀ byte, byteOfName? name = some byte → byte ∉ [0x4c, 0x4d, 0x4e] →
      ∃ element, Names name element ∧ Wire.decode [byte] = ⟨[element], none⟩ ∧
        Wire.encode [element] = [byte] := by
  refine ⟨?_, ?_, ?_⟩
  · intro n
    rw [← SmallInt.exists_toNat_iff, Option.map_eq_some_iff]
    constructor
    · rintro ⟨k, hk, rfl⟩
      exact ⟨⟨k, rfl⟩, smallIntOfName?_eq_some_iff.1 hk⟩
    · rintro ⟨⟨k, rfl⟩, hname⟩
      exact ⟨k, smallIntOfName?_eq_some_iff.2 hname, rfl⟩
  · cases hop : ofMnemonic? name with
    | none => exact .inl rfl
    | some op =>
      have hname := mnemonic_of_ofMnemonic? hop
      exact .inr (hname ▸ smallIntOfName?_mnemonic op)
  · intro byte hbyte hpush
    obtain ⟨element, hnames, hencode, hcanonical⟩ := exists_names_of_byteOfName? hbyte
    have hread := Wire.decode_encode (List.forall_mem_singleton.2 (hcanonical hpush))
    rw [hencode] at hread
    exact ⟨element, hnames, hread, hencode⟩

/-- A plus sign and zeros do not change what a name stands for. -/
theorem names_fit_wire_zeros :
    byteOfName? "OP_+0016" = some 0x60 ∧ (0x60 : UInt8) ∉ [0x4c, 0x4d, 0x4e] ∧
      ∃ element, Names "OP_+0016" element ∧ Wire.decode [0x60] = ⟨[element], none⟩ ∧
        Wire.encode [element] = [0x60] := by
  have hbyte : byteOfName? "OP_+0016" = some 0x60 := by decide +kernel
  exact ⟨hbyte, by decide, (names_fit_wire "OP_+0016").2.2 0x60 hbyte (by decide)⟩

end UtxoScript.Opcode
