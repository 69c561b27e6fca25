import UtxoScript.Network
import UtxoScript.Proofs.Address.RoundTrip
import UtxoScript.Proofs.Template.Disjoint

/-!
# The addresses of the templates

Which addresses a script has, by the template that it fits, and how they are read back from their
texts. The main statement, `templates_told_apart`, is that no script fits two templates, so that the
kind of an output and its addresses follow from the one that matches.

One recogniser stands apart. It looks for a multisig lock in the last push of a script and asks
nothing of what comes before, so that it may match beside one of the others. An output that carries
data is such a script, and where its payload reads as a multisig lock, it has the address of the
payload (`ofScript_of_nullData`), although nobody is paid.
-/

namespace UtxoScript

open Template

/-! ## Addresses by template -/

section

variable {network : Network} {script : Script}

/-- The address of a lock to a key digest. -/
theorem ofScript_of_pubKeyHash? {locking : Script} {hash : Bytes}
    (h : pubKeyHash? locking = some hash) :
    Address.ofScript network locking = [Address.ofKeyHash network hash] := by
  rw [Address.ofScript, h]

/-- The address of a lock to a key. -/
theorem ofScript_of_pubKey? {key : Bytes} (h : pubKey? script = some key) :
    Address.ofScript network script = [Address.ofKey network key] := by
  rw [pubKey?_eq_some h]
  rfl

/-- The address of an input that spends a key digest is that of the key. -/
theorem ofScript_of_pubKeyHashSpend? {signature key : Bytes}
    (h : pubKeyHashSpend? script = some (signature, key)) :
    Address.ofScript network script = [Address.ofKey network key] := by
  have hscript := pubKeyHashSpend?_eq_some h
  subst hscript
  rw [Address.ofScript, h]
  rfl

/-- The address of a lock to a script digest. -/
theorem ofScript_of_scriptHash? {locking : Script} {hash : Bytes}
    (h : scriptHash? locking = some hash) :
    Address.ofScript network locking = [Address.ofScriptHash network hash] := by
  have hlocking := scriptHash?_eq_some h
  subst hlocking
  rw [Address.ofScript, h]
  rfl

/-- The addresses of a multisig lock are those of its keys. -/
theorem ofScript_of_multisig {lock : Multisig} (h : Multisig.ofScript? script = some lock) :
    Address.ofScript network script = lock.keys.map (Address.ofKey network) := by
  have hscript := multisig_ofScript?_eq_some h
  subst hscript
  rw [Address.ofScript, h]
  rfl

/-- A script that ends in a push has the address of what it pushes last, as that of a key or as that
of a script, or none. -/
theorem ofScript_concat_data (before : Script) (item : Bytes) :
    Address.ofScript network (before ++ [.data item]) =
      if (pubKeyHashSpend? (before ++ [.data item])).isSome then
        [Address.ofKeyHash network (hash160 item)]
      else if (scriptHashSpend? (before ++ [.data item])).isSome then
        [Address.ofScriptHash network (hash160 item)]
      else [] := by
  unfold Address.ofScript
  -- Of the recognisers only the two of inputs are left.
  simp only [pubKeyHash?_concat_data, pubKey?_concat_data, scriptHash?_concat_data,
    multisig_ofScript?_concat_data, redeemScript?_concat_data]
  cases hspend : pubKeyHashSpend? (before ++ [.data item]) with
  | none => rfl
  | some found =>
    obtain ⟨signature, key⟩ := found
    have hlast : before ++ [.data item] = [.data signature] ++ [.data key] :=
      pubKeyHashSpend?_eq_some hspend
    obtain ⟨-, hitem⟩ := List.append_inj' hlast rfl
    cases hitem
    rfl

end

/-! ## Texts -/

/-- The texts of addresses are read as these addresses, in order. -/
theorem Address.map_ofText_map_toText (addresses : List Address) :
    (addresses.map toText).map ofText = addresses.map .ok := by
  have hread : ∀ address ∈ addresses, (ofText ∘ toText) address = .ok address := by
    intro address _
    rw [Function.comp_apply, ofText_toText]
  rw [List.map_map]
  exact List.map_congr_left hread

/-- **The templates are told apart.** A script fits at most one of the six templates that are
recognised by its elements. So the kind of an output is that of the template that matches, in
whatever order they are tried, and it is never a multisig lock; and the addresses are those that the
template holds: under the version of keys for a key digest, a key and each key of a multisig lock,
and under the version of scripts for a script digest. -/
theorem templates_told_apart (script : Script) :
    (∀ a b : Kind, a.fits script = true → b.fits script = true → a = b) ∧
    ((OutputType.ofScript script = .pubKeyHash ↔ (pubKeyHash? script).isSome) ∧
      (OutputType.ofScript script = .pubKey ↔ (pubKey? script).isSome) ∧
      (OutputType.ofScript script = .scriptHash ↔ (scriptHash? script).isSome) ∧
      (OutputType.ofScript script = .nullData ↔ (nullData? script).isSome) ∧
      OutputType.ofScript script ≠ .multisig) ∧
    (∀ order : List (Kind × OutputType), order.Perm OutputType.templates →
      OutputType.firstOf order script = OutputType.ofScript script) ∧
    ∀ network : Network,
      let texts := (Address.ofScript network script).map Address.toText
      (∀ hash, pubKeyHash? script = some hash →
        texts.map Address.ofText = [.ok ⟨network.pubKeyHashVersion, hash⟩]) ∧
      (∀ hash, scriptHash? script = some hash →
        texts.map Address.ofText = [.ok ⟨network.scriptHashVersion, hash⟩]) ∧
      (∀ key, pubKey? script = some key →
        texts.map Address.ofText = [.ok ⟨network.pubKeyHashVersion, hash160 key⟩]) ∧
      (∀ signature key, pubKeyHashSpend? script = some (signature, key) →
        texts.map Address.ofText = [.ok ⟨network.pubKeyHashVersion, hash160 key⟩]) ∧
      ∀ lock, Multisig.ofScript? script = some lock →
        texts.length = lock.total.toNat ∧
          texts.map Address.ofText =
            lock.keys.map fun key => .ok ⟨network.pubKeyHashVersion, hash160 key⟩ := by
  have hpubKeyHash : (Kind.pubKeyHash, OutputType.pubKeyHash) ∈ OutputType.templates := by decide
  have hpubKey : (Kind.pubKey, OutputType.pubKey) ∈ OutputType.templates := by decide
  have hscriptHash : (Kind.scriptHash, OutputType.scriptHash) ∈ OutputType.templates := by decide
  have hnullData : (Kind.nullData, OutputType.nullData) ∈ OutputType.templates := by decide
  refine ⟨fun _ _ => Kind.eq_of_fits,
    ⟨OutputType.ofScript_eq_iff hpubKeyHash, OutputType.ofScript_eq_iff hpubKey,
      OutputType.ofScript_eq_iff hscriptHash, OutputType.ofScript_eq_iff hnullData,
      OutputType.ofScript_ne_multisig script⟩,
    fun _ horder => OutputType.firstOf_eq_ofScript horder script, fun network => ?_⟩
  dsimp only
  rw [Address.map_ofText_map_toText, List.length_map]
  refine ⟨fun hash h => ?_, fun hash h => ?_, fun key h => ?_, fun signature key h => ?_,
    fun lock h => ⟨?_, ?_⟩⟩
  · rw [ofScript_of_pubKeyHash? h]
    rfl
  · rw [ofScript_of_scriptHash? h]
    rfl
  · rw [ofScript_of_pubKey? h]
    rfl
  · rw [ofScript_of_pubKeyHashSpend? h]
    rfl
  · rw [ofScript_of_multisig h, List.length_map, lock.length_keys]
  · rw [ofScript_of_multisig h, List.map_map]
    rfl

/-- A lock of one signature for two keys has the addresses of both, a lock to a key digest has the
address of the digest, and a lock to a script digest has that of a script. An input of a signature
and a key has the same address as a lock to the key. -/
theorem templates_told_apart_testnet3 :
    let hash : Bytes := List.replicate 20 7
    let key : Bytes := List.replicate 33 2
    let other : Bytes := List.replicate 33 3
    let lock : Multisig :=
      { required := ⟨1, by decide, by decide⟩, total := ⟨2, by decide, by decide⟩
        keys := [key, other], length_keys := rfl, required_le := by decide }
    let keyHashLock : Script :=
      [.op .dup, .op .hash160, .data hash, .op .equalVerify, .op .checkSig]
    let read (script : Script) :=
      ((Address.ofScript .testnet3 script).map Address.toText).map Address.ofText
    (Kind.pubKeyHash.fits keyHashLock = true ∧
      ∀ kind : Kind, kind.fits keyHashLock = true → kind = .pubKeyHash) ∧
    OutputType.firstOf OutputType.templates.reverse keyHashLock = .pubKeyHash ∧
    read keyHashLock = [.ok ⟨0x6f, hash⟩] ∧
    read [.op .hash160, .data hash, .op .equal] = [.ok ⟨0xc4, hash⟩] ∧
    read [.data key, .op .checkSig] = [.ok ⟨0x6f, hash160 key⟩] ∧
    read [.data (List.replicate 9 1), .data key] = [.ok ⟨0x6f, hash160 key⟩] ∧
    read lock.script = [.ok ⟨0x6f, hash160 key⟩, .ok ⟨0x6f, hash160 other⟩] := by
  intro hash key other lock keyHashLock read
  have hkeyHash : pubKeyHash? keyHashLock = some hash := rfl
  have hfits : Kind.pubKeyHash.fits keyHashLock = true := rfl
  obtain ⟨unique, ⟨hkind, -⟩, orders, addresses⟩ := templates_told_apart keyHashLock
  have horder := orders _ (List.reverse_perm OutputType.templates)
  rw [hkind.2 (Option.isSome_of_eq_some hkeyHash)] at horder
  obtain ⟨-, -, -, scriptHashes⟩ := templates_told_apart [.op .hash160, .data hash, .op .equal]
  obtain ⟨-, -, -, keys⟩ := templates_told_apart [.data key, .op .checkSig]
  obtain ⟨-, -, -, spends⟩ := templates_told_apart [.data (List.replicate 9 1), .data key]
  obtain ⟨-, -, -, locks⟩ := templates_told_apart lock.script
  exact ⟨⟨hfits, fun kind h => unique kind .pubKeyHash h hfits⟩, horder,
    (addresses .testnet3).1 hash hkeyHash, (scriptHashes .testnet3).2.1 hash rfl,
    (keys .testnet3).2.2.1 key rfl, (spends .testnet3).2.2.2.1 _ key rfl,
    ((locks .testnet3).2.2.2.2 lock (multisig_ofScript?_script lock)).2⟩

/-! ## Outputs that carry data -/

/-- The script of a multisig lock with one key. Its length is one that keys may have. -/
def singleKeyRedeem : Bytes := 0x51 :: 0x21 :: List.replicate 33 0x02 ++ [0x51, 0xae]

/-- Of the recognisers only the one that reads the last push can match an output that carries
data. -/
theorem ofScript_opReturn_data (network : Network) (payload : Bytes) :
    Address.ofScript network [.op .opReturn, .data payload] =
      if (Multisig.ofScript? (Wire.decode payload).script).isSome then
        [Address.ofScriptHash network (hash160 payload)]
      else [] := by
  have hspend : (pubKeyHashSpend? ([.op .opReturn] ++ [.data payload])).isSome = false := rfl
  have haddresses := @ofScript_concat_data network [.op .opReturn] payload
  rw [hspend, scriptHashSpend?_concat_data] at haddresses
  exact haddresses

/-- What the addresses of an output that carries data are, exactly: none, unless the payload reads
as a multisig lock, and then that of the payload as a script. -/
theorem ofScript_of_nullData (network : Network) {script : Script}
    (h : OutputType.ofScript script = .nullData) :
    ∃ payload, nullData? script = some payload ∧
      Address.ofScript network script =
        if (Multisig.ofScript? (Wire.decode payload).script).isSome then
          [Address.ofScriptHash network (hash160 payload)]
        else [] := by
  have hnullData : (Kind.nullData, OutputType.nullData) ∈ OutputType.templates := by decide
  obtain ⟨payload, hpayload⟩ :=
    Option.isSome_iff_exists.1 ((OutputType.ofScript_eq_iff hnullData).1 h)
  have hscript := (nullData?_eq_some_iff.1 hpayload).1
  subst hscript
  exact ⟨payload, hpayload, ofScript_opReturn_data network payload⟩

/-- A payload that is a number and no lock has no address, and one that is a multisig lock has. -/
theorem ofScript_of_nullData_payloads :
    let number : Script := [.op .opReturn, .data [0x01, 0x02, 0x03, 0x04]]
    let lock : Script := [.op .opReturn, .data singleKeyRedeem]
    (OutputType.ofScript number = .nullData ∧ Address.ofScript .mainnet number = []) ∧
      OutputType.ofScript lock = .nullData ∧
      Address.ofScript .mainnet lock =
        [Address.ofScriptHash .mainnet (hash160 singleKeyRedeem)] := by
  intro number lock
  have hnumber : OutputType.ofScript number = .nullData := rfl
  have hlock : OutputType.ofScript lock = .nullData := rfl
  obtain ⟨payload, hpayload, hnone⟩ := ofScript_of_nullData .mainnet hnumber
  obtain ⟨payload', hpayload', hsome⟩ := ofScript_of_nullData .mainnet hlock
  obtain rfl : [0x01, 0x02, 0x03, 0x04] = payload := Option.some.inj hpayload
  obtain rfl : singleKeyRedeem = payload' := Option.some.inj hpayload'
  have hread :
      (Multisig.ofScript? (Wire.decode [0x01, 0x02, 0x03, 0x04]).script).isSome = false := by
    decide +kernel
  have hread' : (Multisig.ofScript? (Wire.decode singleKeyRedeem).script).isSome = true := by
    decide +kernel
  rw [hread] at hnone
  rw [if_pos hread'] at hsome
  exact ⟨⟨hnumber, hnone⟩, hlock, hsome⟩

/-- An output that carries data may have an address: it has the one of its payload where the payload
is the script of a multisig lock. -/
theorem nullData_not_without_address :
    ¬ (OutputType.ofScript [.op .opReturn, .data singleKeyRedeem] = .nullData →
      Address.ofScript .mainnet [.op .opReturn, .data singleKeyRedeem] = []) := by
  intro h
  have haddresses := h rfl
  have hread : (Multisig.ofScript? (Wire.decode singleKeyRedeem).script).isSome = true := by
    decide +kernel
  rw [ofScript_opReturn_data, if_pos hread] at haddresses
  contradiction

end UtxoScript
