import UtxoScript.Proofs.Secp256k1.Der
import UtxoScript.Secp256k1.Verifier

/-!
# Signatures that fare alike

All that a signature is asked for is the lower of its two forms (`verifier_congr`), so the forms of
one signature fare alike, and so do the ways to write one form. The forms are exchanged by negating
`s` modulo the order, which is odd, so one of them is the lower (`lowered_neg`). Integers that are
out of range give a signature with a zero, which is never valid. These are the parts of the main
statement, `verifier_malleability`.
-/

namespace UtxoScript.Secp256k1

namespace Signature

/-! ## The lower form -/

/-- Both forms of a signature have the same lower form. -/
theorem lowered_neg {r s : Nat} (hs : s < order) :
    lowered ⟨r, order - s⟩ = lowered ⟨r, s⟩ := by
  have hodd : order % 2 = 1 := by decide
  unfold lowered
  dsimp only
  -- The order is odd, so of two numbers that sum to it exactly one is above its half.
  rcases Nat.lt_or_ge (order / 2) s with hhigh | hlow
  · rw [if_neg (by omega), if_pos hhigh]
  · rw [if_pos (by omega), if_neg (Nat.not_lt.2 hlow), Nat.sub_sub_self hs.le]

/-- A signature with a zero is not valid, and lowering leaves it one. -/
theorem isValid_lowered_of_zero {signature : Signature} (h : signature.r = 0 ∨ signature.s = 0)
    (z : Nat) (Q : Point) : signature.lowered.isValid z Q = false := by
  have hlowered : signature.lowered.r = 0 ∨ signature.lowered.s = 0 := by
    unfold lowered
    split_ifs with hhigh
    · exact h.imp_right fun hzero => absurd hhigh (by rw [hzero]; exact Nat.not_lt_zero _)
    · exact h
  rw [isValid, if_pos hlowered]

end Signature

/-! ## Integers out of range -/

/-- The digits spell no number that an integer of a valid signature may be: zero, or one that is not
below the order, or takes more than 32 bytes. -/
def Der.OutOfRange (digits : Bytes) : Prop :=
  Bytes.toNatBE digits = 0 ∨ order ≤ Bytes.toNatBE digits ∨
    32 < (digits.dropWhile (· == 0)).length

/-- A number of more than 32 bytes is not below the order. -/
theorem Der.OutOfRange.eq_zero_or_le {digits : Bytes} (h : OutOfRange digits) :
    Bytes.toNatBE digits = 0 ∨ order ≤ Bytes.toNatBE digits := by
  rcases h with hzero | hle | hcount
  · exact .inl hzero
  · exact .inr hle
  · exact .inr (order_lt.le.trans (Bytes.pow_le_toNatBE hcount))

/-- The signature has a zero if either integer is out of range. -/
theorem Signature.ofDigits_of_outOfRange {r s : Bytes}
    (h : Der.OutOfRange r ∨ Der.OutOfRange s) :
    (ofDigits r s).r = 0 ∨ (ofDigits r s).s = 0 := by
  have hrange := h.imp Der.OutOfRange.eq_zero_or_le Der.OutOfRange.eq_zero_or_le
  rw [ofDigits_eq_ite]
  split_ifs with hlt
  · dsimp only
    omega
  · exact .inl rfl

/-! ## Answers -/

/-- What is read of a signature decides with its lower form alone. -/
theorem verifier_congr {bytes bytes' : Bytes}
    (h : (Signature.ofDer? bytes).map Signature.lowered =
      (Signature.ofDer? bytes').map Signature.lowered)
    (digest : Digest) (publicKey : Bytes) :
    verifier digest bytes publicKey = verifier digest bytes' publicKey := by
  unfold verifier
  cases publicPoint? publicKey with
  | none => rfl
  | some Q =>
    cases hbytes : Signature.ofDer? bytes with
    | none =>
      rw [hbytes] at h
      rw [Option.map_eq_none_iff.1 h.symm]
    | some signature =>
      rw [hbytes] at h
      obtain ⟨signature', hbytes', hlowered⟩ := Option.map_eq_some_iff.1 h.symm
      rw [hbytes']
      dsimp only
      rw [hlowered]

/-- Only what is read as a signature without a zero is accepted. -/
theorem verifier_eq_false {bytes : Bytes}
    (h : ∀ signature, Signature.ofDer? bytes = some signature → signature.r = 0 ∨ signature.s = 0)
    (digest : Digest) (publicKey : Bytes) : verifier digest bytes publicKey = false := by
  unfold verifier
  split
  · next hbytes => exact Signature.isValid_lowered_of_zero (h _ hbytes) _ _
  · -- There is no key or no signature.
    rfl

/-- **Malleability is neutral.** A byte string is read as a signature exactly if it has the tolerant
form, and its integers count as they are if both are below the order, and else as zeros. For every
digest and public key: signatures that differ by the sign of `s` modulo the order get one answer; the
strict form of a signature is read as it, and bytes behind what is read as a signature change neither
what is read nor the answer; and what is not read as a signature, or has an integer out of range, is
never accepted. -/
theorem verifier_malleability (digest : Digest) (publicKey : Bytes) :
    (∀ (bytes : Bytes) (signature : Signature), Signature.ofDer? bytes = some signature ↔
      ∃ r s, Signature.Lax r s bytes ∧ signature =
        if Bytes.toNatBE r < order ∧ Bytes.toNatBE s < order then
          ⟨Bytes.toNatBE r, Bytes.toNatBE s⟩
        else ⟨0, 0⟩) ∧
    (∀ (r s : Nat), 0 < r → r < order → 0 < s → s < order → ∀ bytes bytes' : Bytes,
      Signature.ofDer? bytes = some ⟨r, s⟩ → Signature.ofDer? bytes' = some ⟨r, order - s⟩ →
      verifier digest bytes publicKey = verifier digest bytes' publicKey) ∧
    (∀ (r s : Nat), r < order → s < order →
      Signature.ofDer? (Signature.toDer ⟨r, s⟩) = some ⟨r, s⟩) ∧
    (∀ (bytes : Bytes) (signature : Signature), Signature.ofDer? bytes = some signature →
      ∀ tail : Bytes, Signature.ofDer? (bytes ++ tail) = some signature ∧
        verifier digest (bytes ++ tail) publicKey = verifier digest bytes publicKey) ∧
    (∀ bytes : Bytes, (∀ r s, ¬ Signature.Lax r s bytes) →
      verifier digest bytes publicKey = false) ∧
    ∀ (r s bytes : Bytes), Signature.Lax r s bytes → Der.OutOfRange r ∨ Der.OutOfRange s →
      verifier digest bytes publicKey = false := by
  refine ⟨?_, ?_, fun r s hr hs => Signature.ofDer?_toDer hr hs, ?_, ?_, ?_⟩
  · intro bytes signature
    rw [Signature.ofDer?_eq_some_iff_lax]
    simp only [Signature.ofDigits_eq_ite]
  · intro r s _ _ _ hs bytes bytes' hbytes hbytes'
    apply verifier_congr
    rw [hbytes, hbytes', Option.map_some, Option.map_some, Signature.lowered_neg hs]
  · intro bytes signature hbytes tail
    have happend := Signature.ofDer?_append hbytes tail
    refine ⟨happend, verifier_congr ?_ digest publicKey⟩
    rw [happend, hbytes]
  · intro bytes hlax
    refine verifier_eq_false (fun signature hbytes => ?_) digest publicKey
    obtain ⟨r, s, h, -⟩ := Signature.ofDer?_eq_some_iff_lax.1 hbytes
    exact absurd h (hlax r s)
  · intro r s bytes hlax hrange
    refine verifier_eq_false (fun signature hbytes => ?_) digest publicKey
    have hread := Signature.ofDer?_eq_some_iff_lax.2 ⟨r, s, hlax, rfl⟩
    rw [hread] at hbytes
    rw [← Option.some.inj hbytes]
    exact Signature.ofDigits_of_outOfRange hrange

/-- Over the digest zero the generator is the key of a signature whose integers are both its own
first coordinate. The other form is accepted too, the same bytes are with one more behind them, and
no signature with a zero is. -/
theorem verifier_malleability_generator :
    verifier ⟨List.replicate 32 0, List.length_replicate⟩
      (Signature.toDer ⟨generator.x.val, order - generator.x.val⟩)
      (0x02 :: Bytes.ofNatBE generator.x.val) = true ∧
    verifier ⟨List.replicate 32 0, List.length_replicate⟩
      (Signature.toDer ⟨generator.x.val, generator.x.val⟩ ++ [0xff])
      (0x02 :: Bytes.ofNatBE generator.x.val) = true ∧
    verifier ⟨List.replicate 32 0, List.length_replicate⟩
      [0x30, 0x06, 0x02, 0x01, 0x00, 0x02, 0x01, 0x01]
      (0x02 :: Bytes.ofNatBE generator.x.val) = false := by
  have hx : generator.x.val < order := by decide +kernel
  have hvalid : verifier ⟨List.replicate 32 0, List.length_replicate⟩
      (Signature.toDer ⟨generator.x.val, generator.x.val⟩)
      (0x02 :: Bytes.ofNatBE generator.x.val) = true := by decide +kernel
  obtain ⟨-, hneg, hstrict, happend, -, hrange⟩ := verifier_malleability
    ⟨List.replicate 32 0, List.length_replicate⟩ (0x02 :: Bytes.ofNatBE generator.x.val)
  refine ⟨?_, ?_, ?_⟩
  · have hpos : 0 < generator.x.val := by decide +kernel
    have hother := hstrict generator.x.val (order - generator.x.val) hx (by decide +kernel)
    rw [← hneg _ _ hpos hx hpos hx _ _ (hstrict _ _ hx hx) hother, hvalid]
  · rw [(happend _ _ (hstrict _ _ hx hx) [0xff]).2, hvalid]
  · have hlength : Der.Length 1 [0x01] := @Der.Length.short 0x01 (by decide)
    have hinteger (digit : UInt8) : Der.Integer [digit] [0x02, 0x01, digit] :=
      @Der.Integer.mk [digit] [0x01] hlength
    have hzero := @Signature.Lax.mk _ _ [0x06] _ _ [] (.short (by decide)) (hinteger 0x00)
      (hinteger 0x01)
    exact hrange _ _ _ hzero (.inl (.inl rfl))

end UtxoScript.Secp256k1
