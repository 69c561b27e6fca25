/-!
# Small integers

The integers 1 to 16 have one byte of their own each on the wire, `0x50 + n`. The bounds are part of
the type, so `ofWire?_toWire` needs no hypothesis, and `toWire_of_ofWire?` says that no other byte
is read as a small integer.
-/

namespace UtxoScript

/-- An integer from 1 to 16. -/
structure SmallInt where
  /-- The integer. -/
  val : UInt8
  /-- It is at least one. -/
  one_le : 1 ≤ val
  /-- It is at most sixteen. -/
  le_sixteen : val ≤ 16
  deriving DecidableEq

namespace SmallInt

/-- The small integer of this value, if it is one. -/
def ofNat? (n : Nat) : Option SmallInt :=
  if h : 1 ≤ n ∧ n ≤ 16 then
    some
      { val := UInt8.ofNat n
        one_le := by
          rw [UInt8.le_iff_toNat_le, UInt8.toNat_ofNat']
          have : (1 : UInt8).toNat = 1 := rfl
          omega
        le_sixteen := by
          rw [UInt8.le_iff_toNat_le, UInt8.toNat_ofNat']
          have : (16 : UInt8).toNat = 16 := rfl
          omega }
  else none

/-- What is said of a number that is no small integer. -/
def outOfRange (n : Int) : String := "small integer out of range: " ++ toString n

/-- The integer as a natural number. -/
def toNat (n : SmallInt) : Nat := n.val.toNat

/-- The byte that stands for the integer on the wire. -/
def toWire (n : SmallInt) : UInt8 := 0x50 + n.val

/-- The small integer that a byte stands for: bytes `0x51` to `0x60` stand for one. -/
def ofWire? (byte : UInt8) : Option SmallInt :=
  if h : 1 ≤ byte - 0x50 ∧ byte - 0x50 ≤ 16 then some ⟨byte - 0x50, h.1, h.2⟩ else none

/-- Two small integers of one value are the same. -/
theorem ext_of_val {m n : SmallInt} (h : m.val = n.val) : m = n := by
  cases m; cases n; cases h; rfl

/-- A small integer is at least one and at most sixteen. -/
theorem toNat_bounds (n : SmallInt) : 1 ≤ n.toNat ∧ n.toNat ≤ 16 :=
  ⟨UInt8.le_iff_toNat_le.1 n.one_le, UInt8.le_iff_toNat_le.1 n.le_sixteen⟩

/-- Two small integers are the same if they are the same number. -/
theorem toNat_inj {m n : SmallInt} : m.toNat = n.toNat ↔ m = n :=
  ⟨fun h => ext_of_val (UInt8.toNat_inj.1 h), congrArg toNat⟩

/-- The small integer of a value is the one that has it. -/
theorem ofNat?_eq_some_iff {k : Nat} {n : SmallInt} : ofNat? k = some n ↔ n.toNat = k := by
  unfold ofNat?
  constructor
  · intro h
    split at h
    · next hk =>
      cases h
      exact UInt8.toNat_ofNat_of_lt' (Nat.lt_of_le_of_lt hk.2 (by decide))
    · contradiction
  · intro h
    have hk : 1 ≤ k ∧ k ≤ 16 := h ▸ n.toNat_bounds
    rw [dif_pos hk, Option.some_inj]
    have hval : UInt8.ofNat k = n.val := h ▸ UInt8.ofNat_toNat
    exact ext_of_val hval

/-- The byte of a small integer is read as that integer. -/
@[simp] theorem ofWire?_toWire (n : SmallInt) : ofWire? n.toWire = some n := by
  have val : n.toWire - 0x50 = n.val := by
    rw [toWire, UInt8.add_comm]
    exact UInt8.add_sub_cancel n.val 0x50
  simp only [ofWire?, val]
  rw [dif_pos ⟨n.one_le, n.le_sixteen⟩]

/-- A byte that is read as a small integer is the byte of that integer. -/
theorem toWire_of_ofWire? {byte : UInt8} {n : SmallInt} (h : ofWire? byte = some n) :
    n.toWire = byte := by
  unfold ofWire? at h
  split at h
  · cases h
    rw [toWire, UInt8.add_comm]
    exact UInt8.sub_add_cancel byte 0x50
  · contradiction

end SmallInt

end UtxoScript
