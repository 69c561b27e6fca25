import UtxoScript.Bytes
import UtxoScript.Proofs.Numeral

/-!
# Numbers in bytes

Bytes that hold a number with the most significant byte first are the digits of the number in base
256. Leading zeros add nothing (`toNatBE_dropWhile_zero`), and where there are none, the number of
bytes bounds what they hold from below (`pow_le_toNatBE`). With the least significant byte first, a
number is read back from its bytes if the width is enough (`toNatLE_ofNatLE`).
-/

namespace UtxoScript.Bytes

/-! ## The least significant byte first -/

/-- The number that some bytes spell has no more digits than there are bytes. -/
theorem toNatLE_lt (bytes : Bytes) : toNatLE bytes < 256 ^ bytes.length := by
  induction bytes with
  | nil => simp [toNatLE]
  | cons b rest ih =>
    have hb : b.toNat < 256 := b.toNat_lt
    rw [toNatLE, List.length_cons, pow_succ]
    omega

/-- A number that fits in the width is read back from its bytes. -/
theorem toNatLE_ofNatLE {width n : Nat} (h : n < 256 ^ width) :
    toNatLE (ofNatLE width n) = n := by
  induction width generalizing n with
  | zero =>
    rw [pow_zero] at h
    rw [ofNatLE, toNatLE]
    omega
  | succ width ih =>
    rw [pow_succ] at h
    rw [ofNatLE, toNatLE, ih (by omega), UInt8.toNat_ofNat']
    omega

/-! ## Bytes as digits -/

/-- Numbers below 256 are those of their bytes. -/
theorem map_toNat_map_ofNat {ds : List Nat} (hlt : ∀ d ∈ ds, d < 256) :
    (ds.map UInt8.ofNat).map UInt8.toNat = ds := by
  rw [List.map_map]
  calc
    ds.map (UInt8.toNat ∘ UInt8.ofNat) = ds.map id :=
      List.map_congr_left fun d hd => UInt8.toNat_ofNat_of_lt (hlt d hd)
    _ = ds := List.map_id ds

/-- Bytes are those of their numbers. -/
theorem map_ofNat_map_toNat (bytes : Bytes) : (bytes.map UInt8.toNat).map UInt8.ofNat = bytes := by
  rw [List.map_map]
  exact List.map_id'' (fun _ => UInt8.ofNat_toNat) bytes

/-- The numbers of bytes are below 256. -/
theorem lt_of_mem_map_toNat (bytes : Bytes) : ∀ d ∈ bytes.map UInt8.toNat, d < 256 :=
  List.forall_mem_map.2 fun byte _ => byte.toNat_lt

/-- The number that bytes hold is the one that they spell as digits. -/
theorem toNatBE_eq_value (bytes : Bytes) :
    toNatBE bytes = Numeral.value 256 (bytes.map UInt8.toNat) := by
  unfold toNatBE Numeral.value
  rw [List.foldl_map]

/-! ## The most significant byte first -/

/-- The first byte counts by its place. -/
theorem toNatBE_cons (byte : UInt8) (rest : Bytes) :
    toNatBE (byte :: rest) = byte.toNat * 256 ^ rest.length + toNatBE rest := by
  rw [toNatBE_eq_value, toNatBE_eq_value, Numeral.value_eq_ofDigits, Numeral.value_eq_ofDigits,
    List.map_cons, List.reverse_cons, Nat.ofDigits_append, Nat.ofDigits_singleton,
    List.length_reverse, List.length_map]
  ring

/-- Bytes hold no number that takes more of them. -/
theorem toNatBE_lt (bytes : Bytes) : toNatBE bytes < 256 ^ bytes.length := by
  have hlt (d : Nat) (hd : d ∈ (bytes.map UInt8.toNat).reverse) : d < 256 :=
    lt_of_mem_map_toNat bytes d (List.mem_reverse.1 hd)
  have hvalue := Nat.ofDigits_lt_base_pow_length (by decide) hlt
  rwa [List.length_reverse, List.length_map, ← Numeral.value_eq_ofDigits, ← toNatBE_eq_value]
    at hvalue

/-- Leading zeros add nothing. -/
theorem toNatBE_dropWhile_zero (bytes : Bytes) :
    toNatBE (bytes.dropWhile (· == 0)) = toNatBE bytes := by
  induction bytes with
  | nil => rfl
  | cons byte rest ih =>
    rw [List.dropWhile_cons]
    split_ifs with hzero
    · have hbyte : byte = 0 := beq_iff_eq.1 hzero
      rw [ih, toNatBE_cons, hbyte, UInt8.toNat_zero, Nat.zero_mul, Nat.zero_add]
    · rfl

/-- A number has at least the size of a place that its first byte other than zero stands above. -/
theorem pow_le_toNatBE {bytes : Bytes} {count : Nat}
    (h : count < (bytes.dropWhile (· == 0)).length) : 256 ^ count ≤ toNatBE bytes := by
  rw [← toNatBE_dropWhile_zero]
  have hnot := List.head?_dropWhile_not (· == 0) bytes
  cases hbytes : bytes.dropWhile (· == 0) with
  | nil =>
    rw [hbytes] at h
    contradiction
  | cons byte rest =>
    rw [hbytes, List.length_cons] at h
    rw [hbytes, List.head?_cons] at hnot
    have hne : byte.toNat ≠ 0 := fun hzero => beq_eq_false_iff_ne.1 hnot (UInt8.toNat_inj.1 hzero)
    calc
      256 ^ count ≤ 256 ^ rest.length := Nat.pow_le_pow_right (by decide) (by omega)
      _ ≤ byte.toNat * 256 ^ rest.length := Nat.le_mul_of_pos_left _ (Nat.pos_of_ne_zero hne)
      _ ≤ toNatBE (byte :: rest) := by
        rw [toNatBE_cons]
        exact Nat.le_add_right _ _

/-! ## The bytes of a number -/

/-- The bytes of a number, the most significant first and none of them a leading zero. -/
def ofNatBE (n : Nat) : Bytes := (Numeral.digits 256 n).map UInt8.ofNat

/-- The bytes of a number hold it. -/
theorem toNatBE_ofNatBE (n : Nat) : toNatBE (ofNatBE n) = n := by
  rw [toNatBE_eq_value, ofNatBE, map_toNat_map_ofNat (Numeral.digits_lt (by decide) n),
    Numeral.value_digits (by decide)]

/-- A number has as many bytes as its size takes. -/
theorem length_ofNatBE_le_iff {n count : Nat} : (ofNatBE n).length ≤ count ↔ n < 256 ^ count := by
  rw [ofNatBE, List.length_map, Numeral.digits_eq_reverse (by decide), List.length_reverse]
  exact Nat.digits_length_le_iff (by decide) n

end UtxoScript.Bytes
