import UtxoScript.Proofs.List
import UtxoScript.Template

/-!
# What the recognisers match

What a script looks like that a recogniser gives something back for, one lemma for each template.
Locks end in an opcode and the inputs that spend them in a push, so the last element of a script
says which recognisers can match it: no recogniser of locks matches a script that ends in a push.
-/

namespace UtxoScript

/-! ## Locks -/

/-- The scripts that lock to a key digest. -/
theorem pubKeyHash?_eq_some {locking : Script} {hash : Bytes}
    (h : Template.pubKeyHash? locking = some hash) :
    locking = [.op .dup, .op .hash160, .data hash, .op .equalVerify, .op .checkSig] := by
  unfold Template.pubKeyHash? at h
  split at h
  · split at h
    · cases h
      rfl
    · contradiction
  · contradiction

/-- The scripts that lock to a key digest are those that hold a digest of the right length. -/
theorem pubKeyHash?_eq_some_iff {script : Script} {hash : Bytes} :
    Template.pubKeyHash? script = some hash ↔
      script = [.op .dup, .op .hash160, .data hash, .op .equalVerify, .op .checkSig] ∧
        hash.length = 20 := by
  constructor
  · intro h
    have hscript := pubKeyHash?_eq_some h
    rw [hscript] at h
    exact ⟨hscript, (Option.ite_none_right_eq_some.1 h).1⟩
  · rintro ⟨rfl, hlength⟩
    exact if_pos hlength

/-- The scripts that lock to a key. -/
theorem pubKey?_eq_some {locking : Script} {key : Bytes}
    (h : Template.pubKey? locking = some key) : locking = [.data key, .op .checkSig] := by
  unfold Template.pubKey? at h
  split at h
  · cases h
    rfl
  · contradiction

/-- The scripts that lock to a key are those that hold the key. -/
theorem pubKey?_eq_some_iff {script : Script} {key : Bytes} :
    Template.pubKey? script = some key ↔ script = [.data key, .op .checkSig] := by
  refine ⟨pubKey?_eq_some, ?_⟩
  rintro rfl
  rfl

/-- The scripts that lock to a script digest. -/
theorem scriptHash?_eq_some {locking : Script} {hash : Bytes}
    (h : Template.scriptHash? locking = some hash) :
    locking = [.op .hash160, .data hash, .op .equal] := by
  unfold Template.scriptHash? at h
  split at h
  · split at h
    · cases h
      rfl
    · contradiction
  · contradiction

/-- The scripts that lock to a script digest are those that hold a digest of the right length. -/
theorem scriptHash?_eq_some_iff {script : Script} {hash : Bytes} :
    Template.scriptHash? script = some hash ↔
      script = [.op .hash160, .data hash, .op .equal] ∧ hash.length = 20 := by
  constructor
  · intro h
    have hscript := scriptHash?_eq_some h
    rw [hscript] at h
    exact ⟨hscript, (Option.ite_none_right_eq_some.1 h).1⟩
  · rintro ⟨rfl, hlength⟩
    exact if_pos hlength

/-- The scripts that carry data are those that hold a payload of at most forty bytes. -/
theorem nullData?_eq_some_iff {script : Script} {payload : Bytes} :
    Template.nullData? script = some payload ↔
      script = [.op .opReturn, .data payload] ∧ payload.length ≤ 40 := by
  unfold Template.nullData?
  split
  · next found =>
    rw [Option.ite_none_right_eq_some]
    constructor
    · rintro ⟨hle, hfound⟩
      cases hfound
      exact ⟨rfl, hle⟩
    · rintro ⟨hscript, hle⟩
      cases hscript
      exact ⟨hle, rfl⟩
  · next hother =>
    refine iff_of_false (by simp) ?_
    rintro ⟨hscript, -⟩
    exact hother payload hscript

/-- The elements that are pushes. -/
theorem data?_eq_some_iff {element : Element} {payload : Bytes} :
    element.data? = some payload ↔ element = .data payload := by
  constructor
  · intro h
    cases element with
    | data bytes => exact congrArg Element.data (Option.some.inj h)
    | number n => contradiction
    | op opcode => contradiction
    | raw byte => contradiction
  · rintro rfl
    rfl

/-- The scripts that consist of pushes. -/
theorem pushes?_eq_some_iff {script : Script} {payloads : List Bytes} :
    Multisig.pushes? script = some payloads ↔ script = payloads.map .data := by
  unfold Multisig.pushes?
  rw [mapM_eq_some_iff]
  simp only [data?_eq_some_iff]
  rw [← List.forall₂_map_right_iff, List.forall₂_eq_eq_eq]

/-- The scripts that are a multisig lock. -/
theorem multisig_ofScript?_eq_some {script : Script} {lock : Multisig}
    (h : Multisig.ofScript? script = some lock) : script = lock.script := by
  unfold Multisig.ofScript? at h
  split at h
  · next required rest =>
    split at h
    · next total keys hreverse =>
      split at h
      · next payloads hpushes =>
        split at h
        · cases h
          have hkeys := pushes?_eq_some_iff.1 hpushes
          rw [List.reverse_eq_iff] at hreverse
          rw [Multisig.script, ← hkeys, hreverse]
          simp
        · contradiction
      · contradiction
    · contradiction
  · contradiction

/-- The script of a multisig lock is recognised as that lock. -/
theorem multisig_ofScript?_script (lock : Multisig) :
    Multisig.ofScript? lock.script = some lock := by
  have hreverse :
      (lock.keys.map .data ++ [.number lock.total, .op .checkMultiSig] : Script).reverse =
        .op .checkMultiSig :: .number lock.total :: (lock.keys.map .data).reverse := by
    simp
  rw [Multisig.script, List.cons_append, Multisig.ofScript?, hreverse]
  dsimp only
  rw [List.reverse_reverse, pushes?_eq_some_iff.2 rfl]
  exact dif_pos ⟨lock.length_keys, lock.required_le⟩

/-- The scripts that are a multisig lock, and no others, are recognised as it. -/
theorem multisig_ofScript?_eq_some_iff {script : Script} {lock : Multisig} :
    Multisig.ofScript? script = some lock ↔ script = lock.script := by
  refine ⟨multisig_ofScript?_eq_some, ?_⟩
  rintro rfl
  exact multisig_ofScript?_script lock

/-- The small integers are the numbers from one to sixteen. -/
theorem SmallInt.exists_toNat_iff {n : Nat} : (∃ k : SmallInt, k.toNat = n) ↔ 1 ≤ n ∧ n ≤ 16 := by
  constructor
  · rintro ⟨k, rfl⟩
    exact k.toNat_bounds
  · rintro ⟨hone, hle⟩
    have hval : (UInt8.ofNat n).toNat = n :=
      UInt8.toNat_ofNat_of_lt (show n < 256 by omega)
    exact ⟨⟨UInt8.ofNat n, UInt8.le_iff_toNat_le.2 (hval.symm ▸ hone),
      UInt8.le_iff_toNat_le.2 (hval.symm ▸ hle)⟩, hval⟩

/-- A script is recognised as a multisig lock of the given numbers and keys exactly if it is the
number of signatures, the keys, their number and the check, and the numbers are in range. -/
theorem Multisig.ofScript?_eq_some_iff_template {script : Script} {required total : Nat}
    {keys : List Bytes} :
    (∃ lock, ofScript? script = some lock ∧
        lock.required.toNat = required ∧ lock.total.toNat = total ∧ lock.keys = keys) ↔
      1 ≤ required ∧ required ≤ total ∧ total ≤ 16 ∧ keys.length = total ∧
        ∃ m n : SmallInt, m.toNat = required ∧ n.toNat = total ∧
          script = [.number m] ++ keys.map .data ++ [.number n, .op .checkMultiSig] := by
  simp only [multisig_ofScript?_eq_some_iff]
  constructor
  · rintro ⟨lock, rfl, rfl, rfl, rfl⟩
    have hone := (SmallInt.exists_toNat_iff.1 ⟨lock.required, rfl⟩).1
    have hsixteen := (SmallInt.exists_toNat_iff.1 ⟨lock.total, rfl⟩).2
    exact ⟨hone, lock.required_le, hsixteen, lock.length_keys, lock.required, lock.total, rfl, rfl,
      rfl⟩
  · rintro ⟨-, hle, -, hlength, m, n, rfl, rfl, rfl⟩
    exact ⟨⟨m, n, keys, hlength, hle⟩, rfl, rfl, rfl, rfl⟩

/-! ## Inputs -/

/-- The scripts that spend a key digest. -/
theorem pubKeyHashSpend?_eq_some {unlocking : Script} {signature key : Bytes}
    (h : Template.pubKeyHashSpend? unlocking = some (signature, key)) :
    unlocking = [.data signature, .data key] := by
  unfold Template.pubKeyHashSpend? at h
  split at h
  · split at h
    · cases h
      rfl
    · contradiction
  · contradiction

/-- The scripts that reveal a script. -/
theorem redeemScript?_eq_some {unlocking : Script} {redeem : Bytes}
    (h : Template.redeemScript? unlocking = some redeem) :
    ∃ before, unlocking = before ++ [.data redeem] := by
  unfold Template.redeemScript? at h
  obtain ⟨element, hlast, helement⟩ := Option.bind_eq_some_iff.1 h
  rw [data?_eq_some_iff.1 helement, List.getLast?_eq_some_iff] at hlast
  exact hlast

/-! ## The last element -/

/-- No script ends both in a push and in an opcode. -/
theorem concat_data_ne_concat_op {before : Script} {item : Bytes} {op : Opcode} (rest : Script) :
    before ++ [.data item] ≠ rest ++ [.op op] := by
  intro h
  obtain ⟨-, hlast⟩ := List.append_inj' h rfl
  cases hlast

section

variable (before : Script) (item : Bytes)

/-- What ends in a push is no lock to a key digest. -/
@[simp] theorem pubKeyHash?_concat_data :
    Template.pubKeyHash? (before ++ [.data item]) = none := by
  rw [Option.eq_none_iff_forall_ne_some]
  intro hash h
  exact concat_data_ne_concat_op [.op .dup, .op .hash160, .data hash, .op .equalVerify]
    (pubKeyHash?_eq_some h)

/-- What ends in a push is no lock to a key. -/
@[simp] theorem pubKey?_concat_data : Template.pubKey? (before ++ [.data item]) = none := by
  rw [Option.eq_none_iff_forall_ne_some]
  intro key h
  exact concat_data_ne_concat_op [.data key] (pubKey?_eq_some h)

/-- What ends in a push is no lock to a script digest. -/
@[simp] theorem scriptHash?_concat_data :
    Template.scriptHash? (before ++ [.data item]) = none := by
  rw [Option.eq_none_iff_forall_ne_some]
  intro hash h
  exact concat_data_ne_concat_op [.op .hash160, .data hash] (scriptHash?_eq_some h)

/-- What ends in a push is no multisig lock. -/
@[simp] theorem multisig_ofScript?_concat_data :
    Multisig.ofScript? (before ++ [.data item]) = none := by
  rw [Option.eq_none_iff_forall_ne_some]
  intro lock h
  have hscript : lock.script =
      .number lock.required :: lock.keys.map .data ++ [.number lock.total] ++
        [.op .checkMultiSig] := by
    simp [Multisig.script]
  exact concat_data_ne_concat_op _ ((multisig_ofScript?_eq_some h).trans hscript)

/-- What ends in a push reveals what is pushed last. -/
@[simp] theorem redeemScript?_concat_data :
    Template.redeemScript? (before ++ [.data item]) = some item := by
  unfold Template.redeemScript?
  rw [List.getLast?_concat]
  rfl

/-- What ends in a push reveals the multisig lock that is read of what is pushed last. -/
@[simp] theorem scriptHashSpend?_concat_data :
    Template.scriptHashSpend? (before ++ [.data item]) =
      Multisig.ofScript? (Wire.decode item).script := by
  rw [Template.scriptHashSpend?, redeemScript?_concat_data, Option.bind_some]

end

/-- The scripts that reveal a multisig lock are those whose last push is read as the script of the
lock. -/
theorem scriptHashSpend?_eq_some_iff {unlocking : Script} {lock : Multisig} :
    Template.scriptHashSpend? unlocking = some lock ↔
      ∃ before redeem, unlocking = before ++ [.data redeem] ∧
        (Wire.decode redeem).script = lock.script := by
  constructor
  · intro h
    obtain ⟨redeem, hredeem, hlock⟩ := Option.bind_eq_some_iff.1 h
    obtain ⟨before, hunlocking⟩ := redeemScript?_eq_some hredeem
    exact ⟨before, redeem, hunlocking, multisig_ofScript?_eq_some hlock⟩
  · rintro ⟨before, redeem, rfl, hlock⟩
    rw [scriptHashSpend?_concat_data, multisig_ofScript?_eq_some_iff]
    exact hlock

end UtxoScript
