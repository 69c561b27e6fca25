import UtxoScript.Proofs.Bytes
import UtxoScript.Secp256k1.Signature

/-!
# Tolerant and strict DER

What the tolerant reader takes is said without the reader: `Signature.Lax` for a signature, with the
digits of its two integers. Bytes are read as a signature exactly if they have that form
(`ofDer?_eq_some_iff_lax`), and the signature is given by the numbers that the digits spell
(`ofDigits_eq_ite`). Strict DER is what `toDer` writes, with the fewest digits that spell an integer
(`length_digits_le_length`). It is one of the tolerant forms, so it is read back (`ofDer?_toDer`).
-/

namespace UtxoScript.Secp256k1

/-- The order takes 32 bytes. -/
theorem order_lt : order < 256 ^ 32 := by decide

/-! ## The tolerant form -/

namespace Der

/-- A length that is read: a byte below `0x80`, or the number of bytes that follow, of which those
from the first that is not zero are fewer than eight. -/
inductive Length : Nat → Bytes → Prop
  /-- The byte is the length. -/
  | short {first : UInt8} (h : first < 0x80) : Length first.toNat [first]
  /-- The length follows the number of its bytes. -/
  | long {first : UInt8} {field : Bytes} (h : first.toNat = 0x80 + field.length)
      (hcount : (field.dropWhile (· == 0)).length < 8) :
      Length (Bytes.toNatBE field) (first :: field)

/-- A length that is skipped: a byte below `0x80`, or the number of bytes that follow. -/
inductive Skipped : Bytes → Prop
  /-- The byte is all. -/
  | short {first : UInt8} (h : first < 0x80) : Skipped [first]
  /-- The bytes that follow are not looked at. -/
  | long {first : UInt8} {field : Bytes} (h : first.toNat = 0x80 + field.length) :
      Skipped (first :: field)

/-- An integer: its tag, the number of its digits, and the digits. -/
inductive Integer (digits : Bytes) : Bytes → Prop
  /-- The digits are counted by the length. -/
  | mk {length : Bytes} (h : Length digits.length length) :
      Integer digits (0x02 :: (length ++ digits))

end Der

/-- A signature in tolerant DER, with the digits of its integers: a tag, a length that is skipped,
the integers, and anything behind them. -/
inductive Signature.Lax (r s : Bytes) : Bytes → Prop
  /-- The parts stand one behind the other. -/
  | mk {length rField sField rest : Bytes} (hlength : Der.Skipped length)
      (hr : Der.Integer r rField) (hs : Der.Integer s sField) :
      Lax r s (0x30 :: (length ++ (rField ++ (sField ++ rest))))

namespace Signature

/-! ## Reading -/

/-- A byte that counts others is no length. -/
theorem not_lt_of_toNat_eq {first : UInt8} {count : Nat} (h : first.toNat = 0x80 + count) :
    ¬ first < 0x80 := by
  rw [UInt8.lt_iff_toNat_lt, h]
  exact Nat.not_lt.2 (Nat.le_add_right _ _)

/-- A byte that is no length counts others. -/
theorem toNat_eq_of_not_lt {first : UInt8} (h : ¬ first < 0x80) :
    first.toNat = 0x80 + (first.toNat - 0x80) := by
  rw [UInt8.lt_iff_toNat_lt] at h
  exact (Nat.add_sub_of_le (Nat.not_lt.1 h)).symm

/-- A length is skipped whatever follows it. -/
theorem afterSequenceLength?_append {length : Bytes} (h : Der.Skipped length) (rest : Bytes) :
    afterSequenceLength? (length ++ rest) = some rest := by
  cases h with
  | short h => rw [List.singleton_append, afterSequenceLength?, if_pos h]
  | @long first field h =>
    have hwidth : first.toNat - 0x80 = field.length := by omega
    rw [List.cons_append, afterSequenceLength?, if_neg (not_lt_of_toNat_eq h), hwidth]
    dsimp only
    rw [List.take_left, List.drop_left, if_neg (Nat.lt_irrefl _)]

/-- What is skipped is a length. -/
theorem afterSequenceLength?_eq_some_iff {bytes rest : Bytes} :
    afterSequenceLength? bytes = some rest ↔
      ∃ length, Der.Skipped length ∧ bytes = length ++ rest := by
  constructor
  · intro h
    unfold afterSequenceLength? at h
    split at h
    · contradiction
    · next first bytes =>
      dsimp only at h
      split_ifs at h with hshort hfield
      · cases h
        exact ⟨[first], .short hshort, rfl⟩
      · rw [← Option.some.inj h]
        refine ⟨first :: bytes.take (first.toNat - 0x80), .long ?_, ?_⟩
        · rw [Nat.le_antisymm (List.length_take_le _ _) (Nat.not_lt.1 hfield)]
          exact toNat_eq_of_not_lt hshort
        · rw [List.cons_append, List.take_append_drop]
  · rintro ⟨length, hlength, rfl⟩
    exact afterSequenceLength?_append hlength rest

/-- A length is read whatever follows it. -/
theorem integerLength?_append {length : Bytes} {n : Nat} (h : Der.Length n length) (rest : Bytes) :
    integerLength? (length ++ rest) = some (n, rest) := by
  cases h with
  | short h => rw [List.singleton_append, integerLength?, if_pos h]
  | @long first field h hcount =>
    have hwidth : first.toNat - 0x80 = field.length := by omega
    rw [List.cons_append, integerLength?, if_neg (not_lt_of_toNat_eq h), hwidth]
    dsimp only
    rw [List.take_left, List.drop_left, if_neg (by omega), Bytes.toNatBE_dropWhile_zero]

/-- What is read as a length is one. -/
theorem integerLength?_eq_some_iff {bytes rest : Bytes} {n : Nat} :
    integerLength? bytes = some (n, rest) ↔
      ∃ length, Der.Length n length ∧ bytes = length ++ rest := by
  constructor
  · intro h
    unfold integerLength? at h
    split at h
    · contradiction
    · next first bytes =>
      dsimp only at h
      split_ifs at h with hshort hfield
      · cases h
        exact ⟨[first], .short hshort, rfl⟩
      · rw [Option.some_inj, Prod.mk.injEq] at h
        rw [not_or, Nat.not_lt, Nat.not_le] at hfield
        -- The bytes from the first that is not zero spell what the whole field spells.
        refine ⟨first :: bytes.take (first.toNat - 0x80), ?_, ?_⟩
        · rw [← h.1, Bytes.toNatBE_dropWhile_zero]
          refine .long ?_ hfield.2
          rw [Nat.le_antisymm (List.length_take_le _ _) hfield.1]
          exact toNat_eq_of_not_lt hshort
        · rw [← h.2, List.cons_append, List.take_append_drop]
  · rintro ⟨length, hlength, rfl⟩
    exact integerLength?_append hlength rest

/-- An integer is read whatever follows it. -/
theorem integer?_append {digits field : Bytes} (h : Der.Integer digits field) (rest : Bytes) :
    integer? (field ++ rest) = some (digits, rest) := by
  obtain ⟨hlength⟩ := h
  rw [List.cons_append, integer?, if_pos rfl, List.append_assoc, integerLength?_append hlength,
    Option.bind_eq_bind, Option.bind_some]
  dsimp only
  rw [List.take_left, List.drop_left, if_neg (Nat.lt_irrefl _)]

/-- What is read as an integer is one. -/
theorem integer?_eq_some_iff {bytes rest digits : Bytes} :
    integer? bytes = some (digits, rest) ↔
      ∃ field, Der.Integer digits field ∧ bytes = field ++ rest := by
  constructor
  · intro h
    unfold integer? at h
    split at h
    · contradiction
    · next tag bytes =>
      split_ifs at h with htag
      obtain ⟨⟨n, after⟩, hlength, hdigits⟩ := Option.bind_eq_some_iff.1 h
      dsimp only at hdigits
      split_ifs at hdigits with hshort
      cases hdigits
      obtain ⟨length, hform, rfl⟩ := integerLength?_eq_some_iff.1 hlength
      have hcount := Nat.le_antisymm (List.length_take_le n after) (Nat.not_lt.1 hshort)
      rw [← hcount] at hform
      refine ⟨0x02 :: (length ++ after.take n), .mk hform, ?_⟩
      rw [htag, List.cons_append, List.append_assoc, List.take_append_drop]
  · rintro ⟨field, hfield, rfl⟩
    exact integer?_append hfield rest

/-- Bytes are read as a signature exactly if they have the tolerant form. -/
theorem ofDer?_eq_some_iff_lax {bytes : Bytes} {signature : Signature} :
    ofDer? bytes = some signature ↔ ∃ r s, Lax r s bytes ∧ signature = ofDigits r s := by
  constructor
  · intro h
    unfold ofDer? at h
    split at h
    · contradiction
    · next tag bytes =>
      split_ifs at h with htag
      obtain ⟨afterLength, hlength, hintegers⟩ := Option.bind_eq_some_iff.1 h
      obtain ⟨⟨r, afterR⟩, hr, hs⟩ := Option.bind_eq_some_iff.1 hintegers
      obtain ⟨⟨s, rest⟩, hs, hsignature⟩ := Option.bind_eq_some_iff.1 hs
      obtain ⟨length, hskipped, rfl⟩ := afterSequenceLength?_eq_some_iff.1 hlength
      obtain ⟨rField, hrField, rfl⟩ := integer?_eq_some_iff.1 hr
      obtain ⟨sField, hsField, rfl⟩ := integer?_eq_some_iff.1 hs
      cases hsignature
      exact ⟨r, s, htag ▸ .mk hskipped hrField hsField, rfl⟩
  · rintro ⟨r, s, ⟨hlength, hr, hs⟩, rfl⟩
    rw [ofDer?, if_pos rfl, afterSequenceLength?_append hlength, Option.bind_eq_bind,
      Option.bind_some, integer?_append hr, Option.bind_eq_bind, Option.bind_some]
    dsimp only
    rw [integer?_append hs]
    rfl

/-- The tolerant form may end in anything. -/
theorem Lax.append {r s bytes : Bytes} (h : Lax r s bytes) (tail : Bytes) :
    Lax r s (bytes ++ tail) := by
  obtain ⟨hlength, hr, hs⟩ := h
  simp only [List.cons_append, List.append_assoc]
  exact .mk hlength hr hs

/-- What has been read as a signature is read as the same one with more bytes behind it. -/
theorem ofDer?_append {bytes : Bytes} {signature : Signature} (h : ofDer? bytes = some signature)
    (tail : Bytes) : ofDer? (bytes ++ tail) = some signature := by
  obtain ⟨r, s, hlax, hsignature⟩ := ofDer?_eq_some_iff_lax.1 h
  exact ofDer?_eq_some_iff_lax.2 ⟨r, s, hlax.append tail, hsignature⟩

/-! ## Numbers -/

/-- Digits are read as the number that they spell if it is below the order, however many zeros
stand in front. -/
theorem scalar?_eq_ite (digits : Bytes) :
    scalar? digits = if Bytes.toNatBE digits < order then some (Bytes.toNatBE digits) else none := by
  unfold scalar?
  dsimp only
  rw [Bytes.toNatBE_dropWhile_zero]
  split_ifs with hcount hlt hlt
  · exact Option.filter_eq_some_iff.2 ⟨rfl, decide_eq_true hlt⟩
  · apply Option.filter_eq_none_iff.2
    intro n hn
    rw [← Option.some.inj hn]
    exact hlt ∘ of_decide_eq_true
  · -- More than 32 bytes from the first that is not zero spell no number below the order.
    have hle := Bytes.pow_le_toNatBE (Nat.not_le.1 hcount)
    exact absurd (hlt.trans order_lt) (Nat.not_lt.2 hle)
  · rfl

/-- The signature of two integers. -/
theorem ofDigits_eq_ite (r s : Bytes) :
    ofDigits r s =
      if Bytes.toNatBE r < order ∧ Bytes.toNatBE s < order then
        ⟨Bytes.toNatBE r, Bytes.toNatBE s⟩
      else ⟨0, 0⟩ := by
  unfold ofDigits
  rw [scalar?_eq_ite, scalar?_eq_ite]
  by_cases hr : Bytes.toNatBE r < order
  · by_cases hs : Bytes.toNatBE s < order
    · rw [if_pos hr, if_pos hs, if_pos ⟨hr, hs⟩]
    · rw [if_pos hr, if_neg hs, if_neg fun h => hs h.2]
  · rw [if_neg hr]
    exact (if_neg fun h => hr h.1).symm

end Signature

/-! ## The strict form -/

namespace Der

/-- A length in strict DER: one byte if it is below `0x80`, and else the number of its bytes and its
bytes. -/
def length (n : Nat) : Bytes :=
  if n < 0x80 then [UInt8.ofNat n]
  else UInt8.ofNat (0x80 + (Bytes.ofNatBE n).length) :: Bytes.ofNatBE n

/-- The digits of an integer in strict DER: the fewest with a first bit that is not set, which would
be the sign. -/
def digits (n : Nat) : Bytes :=
  match Bytes.ofNatBE n with
  | [] => [0]
  | first :: rest => if first < 0x80 then first :: rest else 0 :: first :: rest

/-- An integer in strict DER. -/
def integer (n : Nat) : Bytes := 0x02 :: (length (digits n).length ++ digits n)

/-- A strict length is a tolerant one. -/
theorem length_length {n : Nat} (h : n < 256 ^ 7) : Length n (length n) := by
  unfold length
  split_ifs with hshort
  · have hn : (UInt8.ofNat n).toNat = n := by
      rw [UInt8.toNat_ofNat']
      omega
    have hlt : UInt8.ofNat n < 0x80 := by
      rw [UInt8.lt_iff_toNat_lt, hn]
      exact hshort
    have hlength := Length.short hlt
    rwa [hn] at hlength
  · have hcount := Bytes.length_ofNatBE_le_iff.2 h
    have hfirst : (UInt8.ofNat (0x80 + (Bytes.ofNatBE n).length)).toNat =
        0x80 + (Bytes.ofNatBE n).length := by
      rw [UInt8.toNat_ofNat']
      omega
    have hlength := Length.long hfirst
      (Nat.lt_succ_of_le ((List.dropWhile_suffix _).length_le.trans hcount))
    rwa [Bytes.toNatBE_ofNatBE] at hlength

/-- What can be read as a length can be skipped. -/
theorem Length.skipped {n : Nat} {bytes : Bytes} (h : Length n bytes) : Skipped bytes := by
  cases h with
  | short h => exact .short h
  | long h => exact .long h

/-- The digits of an integer spell it. -/
theorem toNatBE_digits (n : Nat) : Bytes.toNatBE (digits n) = n := by
  have hn := Bytes.toNatBE_ofNatBE n
  unfold digits
  split
  · next hbytes =>
    rw [hbytes] at hn
    exact hn
  · next first rest hbytes =>
    rw [hbytes] at hn
    split_ifs
    · exact hn
    · rw [Bytes.toNatBE_cons, UInt8.toNat_zero, Nat.zero_mul, Nat.zero_add, hn]

/-- No digits of the same number with a first bit that is not set are fewer. -/
theorem length_digits_le_length {first : UInt8} (h : first < 0x80) (rest : Bytes) :
    (digits (Bytes.toNatBE (first :: rest))).length ≤ (first :: rest).length := by
  have hsize : Bytes.toNatBE (first :: rest) < 0x80 * 256 ^ rest.length := by
    have hrest := Bytes.toNatBE_lt rest
    have hfirst : first.toNat + 1 ≤ 0x80 := UInt8.lt_iff_toNat_lt.1 h
    calc
      Bytes.toNatBE (first :: rest) < (first.toNat + 1) * 256 ^ rest.length := by
        rw [Bytes.toNatBE_cons, Nat.succ_mul]
        exact Nat.add_lt_add_left hrest _
      _ ≤ 0x80 * 256 ^ rest.length := Nat.mul_le_mul_right _ hfirst
  have hn := Bytes.toNatBE_ofNatBE (Bytes.toNatBE (first :: rest))
  have hcount : (Bytes.ofNatBE (Bytes.toNatBE (first :: rest))).length ≤ rest.length + 1 := by
    rw [Bytes.length_ofNatBE_le_iff, Nat.pow_succ]
    omega
  unfold digits
  split
  · exact Nat.succ_le_succ (Nat.zero_le _)
  · next first' rest' hbytes =>
    rw [hbytes] at hn hcount
    split_ifs with hsign
    · exact hcount
    · -- The sign takes a digit, and the first bit makes the number larger than one digit less holds.
      have hfirst : 0x80 ≤ first'.toNat := by
        rw [UInt8.lt_iff_toNat_lt] at hsign
        exact Nat.not_lt.1 hsign
      have hpow : 256 ^ rest'.length < 256 ^ rest.length := by
        rw [← hn, Bytes.toNatBE_cons] at hsize
        have hle := Nat.mul_le_mul_right (256 ^ rest'.length) hfirst
        omega
      exact Nat.succ_le_succ ((Nat.pow_lt_pow_iff_right (by decide)).1 hpow)

/-- A number below the order has 33 digits at most. -/
theorem length_digits_le {n : Nat} (h : n < order) : (digits n).length ≤ 33 := by
  have hcount := Bytes.length_ofNatBE_le_iff.2 (h.trans order_lt)
  unfold digits
  split
  · decide
  · next first rest hbytes =>
    rw [hbytes, List.length_cons] at hcount
    split_ifs <;> simp only [List.length_cons] <;> omega

/-- A strict integer is a tolerant one. -/
theorem integer_integer {n : Nat} (h : n < order) : Integer (digits n) (integer n) :=
  .mk (length_length ((length_digits_le h).trans_lt (by decide)))

end Der

namespace Signature

/-- A signature in strict DER: a tag, the number of bytes that follow, and the integers. -/
def toDer (signature : Signature) : Bytes :=
  let integers := Der.integer signature.r ++ Der.integer signature.s
  0x30 :: (Der.length integers.length ++ integers)

/-- A number below the order takes 35 bytes at most. -/
theorem length_integer_le {n : Nat} (h : n < order) : (Der.integer n).length ≤ 35 := by
  have hdigits := Der.length_digits_le h
  rw [Der.integer, Der.length, if_pos (by omega), List.length_cons, List.length_append,
    List.length_singleton]
  omega

/-- The strict form is one of the tolerant forms. -/
theorem lax_toDer {r s : Nat} (hr : r < order) (hs : s < order) :
    Lax (Der.digits r) (Der.digits s) (toDer ⟨r, s⟩) := by
  have hcount : (Der.integer r ++ Der.integer s).length < 256 ^ 7 := by
    have hrCount := length_integer_le hr
    have hsCount := length_integer_le hs
    rw [List.length_append]
    omega
  -- Nothing stands behind the integers.
  have hlax := @Lax.mk _ _ _ _ _ [] (Der.length_length hcount).skipped (Der.integer_integer hr)
    (Der.integer_integer hs)
  rwa [List.append_nil] at hlax

/-- A signature is read from its strict form. -/
theorem ofDer?_toDer {r s : Nat} (hr : r < order) (hs : s < order) :
    ofDer? (toDer ⟨r, s⟩) = some ⟨r, s⟩ := by
  refine ofDer?_eq_some_iff_lax.2 ⟨_, _, lax_toDer hr hs, ?_⟩
  rw [ofDigits_eq_ite, Der.toNatBE_digits, Der.toNatBE_digits, if_pos ⟨hr, hs⟩]

end Signature

end UtxoScript.Secp256k1
