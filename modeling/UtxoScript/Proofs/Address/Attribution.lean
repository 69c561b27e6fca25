import UtxoScript.Proofs.Address.Templates
import UtxoScript.Proofs.Machine.Locks

/-!
# Whom an input spends from

The address of an output is read off the digest that the lock holds, and that of an input is worked
out from what the input pushes. The main statement, `ofScript_eq_of_accepted`, is that the two agree
wherever the spend is accepted.

The link is the run. What an input pushes last is on top of the stack that it leaves
(`executes_concat_data`), so that is what a lock takes the digest of
(`hash160_eq_of_pubKeyHash_accepted`, `hash160_eq_of_scriptHash_accepted`). An input of two pushes
may be read both as a signature and a key and as one that reveals a script. The first reading comes
first in the order of the templates, and then the digest is the same but the version is that of a
key.
-/

namespace UtxoScript

open Template

/-! ## Digests -/

section

variable {ctx? : Option Context} {before locking : Script} {item hash : Bytes}

/-- What a script pushes last is on top of the stack that it leaves. -/
theorem executes_concat_data {stack left : Stack}
    (h : Executes ctx? (before ++ [.data item]) stack left) : ∃ below, left = item :: below := by
  simp only [executes_append, executes_cons, executes_nil, step_data_leaves] at h
  obtain ⟨mid, -, _, rfl, rfl⟩ := h
  exact ⟨mid, rfl⟩

/-- An accepted spend runs the lock on a stack with the last push of the input on top. -/
theorem exists_passes_of_accepted
    (h : (spend ctx? (before ++ [.data item]) locking).accepted = true) :
    ∃ below : Stack, Passes ctx? locking (item :: below) := by
  obtain ⟨hcompleted, hpasses⟩ := spend_accepted_iff.1 h
  obtain ⟨below, hstack⟩ := executes_concat_data ⟨hcompleted, rfl⟩
  rw [hstack] at hpasses
  exact ⟨below, hpasses⟩

/-- A lock to a key digest is unlocked by a push of a key with that digest. -/
theorem hash160_eq_of_pubKeyHash_accepted
    (h : (spend ctx? (before ++ [.data item]) locking).accepted = true)
    (hlocking : pubKeyHash? locking = some hash) : hash160 item = hash := by
  obtain ⟨below, hpasses⟩ := exists_passes_of_accepted h
  rw [pubKeyHash?_eq_some hlocking, passes_pubKeyHash] at hpasses
  obtain ⟨ctx, rest, signature, key, -, hstack, hhash, -⟩ := hpasses
  rw [Stack.bottomFirst_eq_append_iff] at hstack
  cases hstack
  exact hhash

/-- A lock to a script digest is unlocked by a push of a script with that digest. -/
theorem hash160_eq_of_scriptHash_accepted
    (h : (spend ctx? (before ++ [.data item]) locking).accepted = true)
    (hlocking : scriptHash? locking = some hash) : hash160 item = hash := by
  obtain ⟨below, hpasses⟩ := exists_passes_of_accepted h
  rw [scriptHash?_eq_some hlocking, passes_scriptHash] at hpasses
  obtain ⟨rest, top, hstack, hhash⟩ := hpasses
  rw [Stack.bottomFirst_eq_append_iff] at hstack
  cases hstack
  exact hhash

end

/-- An accepted spend is attributed to the address that it unlocks. An input that spends a key
digest has the address of the lock. So has an input that reveals a script, unless it may also be
read as a signature and a key: then it has the address of a key, with the digest that the lock
holds. -/
theorem ofScript_eq_of_accepted (network : Network) (ctx? : Option Context)
    (unlocking locking : Script) (h : (spend ctx? unlocking locking).accepted = true) :
    ((pubKeyHashSpend? unlocking).isSome → (pubKeyHash? locking).isSome →
      Address.ofScript network unlocking = Address.ofScript network locking) ∧
    ∀ hash, (scriptHashSpend? unlocking).isSome → scriptHash? locking = some hash →
      Address.ofScript network unlocking =
        if (pubKeyHashSpend? unlocking).isSome then [Address.ofKeyHash network hash]
        else Address.ofScript network locking := by
  constructor
  · intro hunlocking hlocking
    obtain ⟨⟨signature, key⟩, hspend⟩ := Option.isSome_iff_exists.1 hunlocking
    obtain ⟨hash, hlock⟩ := Option.isSome_iff_exists.1 hlocking
    have hpushes : unlocking = [.data signature] ++ [.data key] := pubKeyHashSpend?_eq_some hspend
    subst hpushes
    rw [ofScript_concat_data, if_pos hunlocking, ofScript_of_pubKeyHash? hlock,
      hash160_eq_of_pubKeyHash_accepted h hlock]
  · intro hash hunlocking hlock
    obtain ⟨lock, hspend⟩ := Option.isSome_iff_exists.1 hunlocking
    obtain ⟨redeem, hredeem, -⟩ := Option.bind_eq_some_iff.1 hspend
    obtain ⟨before, rfl⟩ := redeemScript?_eq_some hredeem
    rw [ofScript_concat_data, if_pos hunlocking, ofScript_of_scriptHash? hlock,
      hash160_eq_of_scriptHash_accepted h hlock]

/-- A push as long as a signature and such a script unlock the digest of the script, both where a
key is asked for and where a script is. In either case the input has the address of a key. -/
theorem ofScript_eq_of_accepted_overlap :
    let signature : Bytes := List.replicate 8 0x30 ++ [0x01]
    let unlocking : Script := [.data signature, .data singleKeyRedeem]
    let keyLock : Script := [.op .dup, .op .hash160, .data (hash160 singleKeyRedeem),
      .op .equalVerify, .op .checkSig]
    let scriptLock : Script := [.op .hash160, .data (hash160 singleKeyRedeem), .op .equal]
    (spend (some Context.permissive) unlocking keyLock).accepted = true ∧
      Address.ofScript .mainnet unlocking = Address.ofScript .mainnet keyLock ∧
      (spend none unlocking scriptLock).accepted = true ∧
      Address.ofScript .mainnet unlocking =
        [Address.ofKeyHash .mainnet (hash160 singleKeyRedeem)] := by
  intro signature unlocking keyLock scriptLock
  have hkeyLock : pubKeyHash? keyLock = some (hash160 singleKeyRedeem) := by
    rw [pubKeyHash?, if_pos (by rw [length_hash160, hash160Length])]
  have hscriptLock : scriptHash? scriptLock = some (hash160 singleKeyRedeem) := by
    rw [scriptHash?, if_pos (by rw [length_hash160, hash160Length])]
  have hkeySpend : (pubKeyHashSpend? unlocking).isSome = true := by decide +kernel
  have hscriptSpend : (scriptHashSpend? unlocking).isSome = true := by decide +kernel
  have hkeyAccepted : (spend (some Context.permissive) unlocking keyLock).accepted = true :=
    spend_accepted_iff.2 ⟨rfl, passes_pubKeyHash.2
      ⟨Context.permissive, [], signature, singleKeyRedeem, rfl, rfl, rfl, rfl, rfl⟩⟩
  have hscriptAccepted : (spend none unlocking scriptLock).accepted = true :=
    spend_accepted_iff.2 ⟨rfl, passes_scriptHash.2 ⟨[signature], singleKeyRedeem, rfl, rfl⟩⟩
  obtain ⟨hkey, -⟩ := ofScript_eq_of_accepted .mainnet _ unlocking keyLock hkeyAccepted
  obtain ⟨-, hscript⟩ := ofScript_eq_of_accepted .mainnet none unlocking scriptLock hscriptAccepted
  have haddress := hscript _ hscriptSpend hscriptLock
  rw [if_pos hkeySpend] at haddress
  exact ⟨hkeyAccepted, hkey hkeySpend (Option.isSome_of_eq_some hkeyLock), hscriptAccepted,
    haddress⟩

end UtxoScript
