import UtxoScript.Proofs.Wire.Template

/-!
# Multisig locks, written and revealed

A multisig lock is recognised by its script and by no other, and an input that reveals one holds
that script in its last push, as bytes. So the lock passes through the wire form twice: its script
is written into the push, and the input that holds the push is written itself. The main statement,
`multisig_revealed`, says that it comes out of both, whatever stands before the push.

Both layers are instances of `Wire.script_decode_encode`. It asks of the elements no more than that
they are canonical, which for the script of a lock comes down to the lengths of its keys
(`canonical_of_mem_script`).
-/

namespace UtxoScript

namespace Multisig

/-- The script of a lock is canonical if the lengths of its keys fit in four bytes. -/
theorem canonical_of_mem_script {lock : Multisig}
    (hkeys : ∀ key ∈ lock.keys, key.length < UInt32.size) :
    ∀ element ∈ lock.script, element.Canonical := by
  intro element hmem
  rw [script, List.cons_append, List.mem_cons, List.mem_append, List.mem_map] at hmem
  obtain rfl | ⟨key, hkey, rfl⟩ | hmem := hmem
  · exact trivial
  · exact hkeys key hkey
  · rw [List.mem_cons, List.mem_singleton] at hmem
    obtain rfl | rfl := hmem
    · exact trivial
    · exact ⟨by decide, by decide, by decide⟩

end Multisig

namespace Wire

/-- What is pushed last is what an input reveals, also when the input has been written and read. -/
theorem scriptHashSpend?_decode_encode_concat {before : Script} {redeem : Bytes}
    (hbefore : ∀ element ∈ before, element.Canonical) (hredeem : redeem.length < UInt32.size) :
    Template.scriptHashSpend? (decode (encode (before ++ [.data redeem]))).script =
      Multisig.ofScript? (decode redeem).script := by
  have hcanonical : ∀ element ∈ before ++ [.data redeem], element.Canonical := by
    rw [List.forall_mem_append, List.forall_mem_singleton]
    exact ⟨hbefore, hredeem⟩
  rw [script_decode_encode hcanonical, scriptHashSpend?_concat_data]

end Wire

/-- **Multisig locks through the wire.** A script is recognised as a multisig lock exactly if it is
the template of one. An input whose last push is the wire form of that script reveals the lock, when
the input has been written and read as well; and every input that reveals a lock ends in a push that
is read as its script, with the numbers of the lock in range. -/
theorem multisig_revealed :
    (∀ (script : Script) (required total : Nat) (keys : List Bytes),
      (∃ lock, Multisig.ofScript? script = some lock ∧
          lock.required.toNat = required ∧ lock.total.toNat = total ∧ lock.keys = keys) ↔
        1 ≤ required ∧ required ≤ total ∧ total ≤ 16 ∧ keys.length = total ∧
          ∃ m n : SmallInt, m.toNat = required ∧ n.toNat = total ∧
            script = [.number m] ++ keys.map .data ++ [.number n, .op .checkMultiSig]) ∧
    (∀ (lock : Multisig) (before : Script),
      (∀ key ∈ lock.keys, key.length < UInt32.size) →
      (Wire.encode lock.script).length < UInt32.size →
      (∃ source, (Wire.decode source).script = before) →
        Template.scriptHashSpend?
          (Wire.decode (Wire.encode (before ++ [.data (Wire.encode lock.script)]))).script =
            some lock) ∧
    ∀ (unlocking : Script) (lock : Multisig),
      Template.scriptHashSpend? unlocking = some lock →
        (∃ before redeem, unlocking = before ++ [.data redeem] ∧
          (Wire.decode redeem).script = lock.script) ∧
        1 ≤ lock.required.toNat ∧ lock.required.toNat ≤ lock.total.toNat ∧
          lock.total.toNat ≤ 16 ∧ lock.keys.length = lock.total.toNat := by
  refine ⟨fun _ _ _ _ => Multisig.ofScript?_eq_some_iff_template, ?_, fun unlocking lock h => ?_⟩
  · rintro lock _ hkeys hredeem ⟨source, rfl⟩
    rw [Wire.scriptHashSpend?_decode_encode_concat (Wire.canonical_of_mem_decode source) hredeem,
      Wire.script_decode_encode (Multisig.canonical_of_mem_script hkeys)]
    exact multisig_ofScript?_script lock
  · obtain ⟨before, redeem, hunlocking, hredeem⟩ := scriptHashSpend?_eq_some_iff.1 h
    have hlock : Multisig.ofScript? (Wire.decode redeem).script = some lock :=
      multisig_ofScript?_eq_some_iff.2 hredeem
    obtain ⟨hone, hle, hsixteen, hlength, -⟩ :=
      Multisig.ofScript?_eq_some_iff_template.1 ⟨lock, hlock, rfl, rfl, rfl⟩
    exact ⟨⟨before, redeem, hunlocking, hredeem⟩, hone, hle, hsixteen, hlength⟩

/-- A lock of one signature for two keys, of which one has the longest header that is its length
alone and the other the first length field. The input begins with an item to be dropped, and with a
byte that no opcode is named for. -/
theorem multisig_revealed_two_keys :
    let lock : Multisig :=
      { required := ⟨1, by decide, by decide⟩, total := ⟨2, by decide, by decide⟩
        keys := [List.replicate 0x4b 2, List.replicate 0x4c 3]
        length_keys := rfl, required_le := by decide }
    let before : Script := [.data [], .raw 0xba]
    (Wire.encode lock.script).length = 157 ∧
      Template.scriptHashSpend?
        (Wire.decode (Wire.encode (before ++ [.data (Wire.encode lock.script)]))).script =
          some lock ∧
      lock.total.toNat ≤ 16 ∧ lock.keys.length = lock.total.toNat := by
  intro lock before
  have hlength : (Wire.encode lock.script).length = 157 := rfl
  have hkeys : ∀ key ∈ lock.keys, key.length < UInt32.size := by decide
  have hbefore : ∃ source, (Wire.decode source).script = before := ⟨[0x00, 0xba], by cbv⟩
  obtain ⟨-, reveals, bounds⟩ := multisig_revealed
  have hlock := reveals lock before hkeys (by rw [hlength]; decide) hbefore
  obtain ⟨-, -, -, hsixteen, hkeysLength⟩ := bounds _ lock hlock
  exact ⟨hlength, hlock, hsixteen, hkeysLength⟩

end UtxoScript
