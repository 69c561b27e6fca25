import UtxoScript.Machine.Multisig
import UtxoScript.Wire

/-!
# Standard templates

The shapes that scripts commonly have, for outputs and for the inputs that spend them. Each
recogniser gives back what the shape holds. Recognition looks at the elements alone and runs
nothing.
-/

namespace UtxoScript

/-- The length of a digest that names a key or a script. -/
def hash160Length : Nat := 20

/-- The shortest signature, with its sighash byte. -/
def minSignatureLength : Nat := 9

/-- The longest signature, with its sighash byte. -/
def maxSignatureLength : Nat := 73

/-- The longest payload of an output that carries data. -/
def maxNullDataLength : Nat := 40

/-- `required` of the keys have to sign. -/
structure Multisig where
  /-- How many signatures are required. -/
  required : SmallInt
  /-- How many keys there are. -/
  total : SmallInt
  /-- The keys, in the order in which they are pushed. -/
  keys : List Bytes
  /-- The script states the number of its keys. -/
  length_keys : keys.length = total.toNat
  /-- No more signatures are required than there are keys. -/
  required_le : required.toNat ≤ total.toNat
  deriving DecidableEq

namespace Multisig

/-- The script of a multisig lock. -/
def script (lock : Multisig) : Script :=
  .number lock.required :: lock.keys.map .data ++ [.number lock.total, .op .checkMultiSig]

/-- The pushed bytes of a script that consists of pushes. -/
def pushes? (script : Script) : Option (List Bytes) := script.mapM Element.data?

/-- The multisig lock that a script is. -/
def ofScript? : Script → Option Multisig
  | .number required :: rest =>
    match rest.reverse with
    | .op .checkMultiSig :: .number total :: keys =>
      match pushes? keys.reverse with
      | some keys =>
        if h : keys.length = total.toNat ∧ required.toNat ≤ total.toNat then
          some ⟨required, total, keys, h.1, h.2⟩
        else none
      | none => none
    | _ => none
  | _ => none

end Multisig

namespace Template

/-- The key digest of `OP_DUP OP_HASH160 <digest> OP_EQUALVERIFY OP_CHECKSIG`. -/
def pubKeyHash? : Script → Option Bytes
  | [.op .dup, .op .hash160, .data hash, .op .equalVerify, .op .checkSig] =>
    if hash.length = hash160Length then some hash else none
  | _ => none

/-- The key of `<key> OP_CHECKSIG`. -/
def pubKey? : Script → Option Bytes
  | [.data key, .op .checkSig] => some key
  | _ => none

/-- The script digest of `OP_HASH160 <digest> OP_EQUAL`. -/
def scriptHash? : Script → Option Bytes
  | [.op .hash160, .data hash, .op .equal] =>
    if hash.length = hash160Length then some hash else none
  | _ => none

/-- The payload of `OP_RETURN <payload>`. -/
def nullData? : Script → Option Bytes
  | [.op .opReturn, .data payload] =>
    if payload.length ≤ maxNullDataLength then some payload else none
  | _ => none

/-- The signature and the key of an input that spends a key digest. -/
def pubKeyHashSpend? : Script → Option (Bytes × Bytes)
  | [.data signature, .data key] =>
    if minSignatureLength ≤ signature.length ∧ signature.length ≤ maxSignatureLength ∧
        minPublicKeyLength ≤ key.length ∧ key.length ≤ maxPublicKeyLength then
      some (signature, key)
    else none
  | _ => none

/-- The bytes of the script that an input reveals: its last push. -/
def redeemScript? (script : Script) : Option Bytes := script.getLast?.bind Element.data?

/-- The multisig lock that an input reveals. -/
def scriptHashSpend? (script : Script) : Option Multisig :=
  (redeemScript? script).bind (fun redeem => Multisig.ofScript? (Wire.decode redeem).script)

end Template

/-- The kinds of outputs. -/
inductive OutputType
  | pubKeyHash | pubKey | scriptHash | multisig | nullData | unrecognized
  deriving DecidableEq, Repr

namespace OutputType

/-- The name of a kind. -/
def name : OutputType → String
  | .pubKeyHash => "pubkeyhash"
  | .pubKey => "pubkey"
  | .scriptHash => "scripthash"
  | .multisig => "multisig"
  | .nullData => "nulldata"
  | .unrecognized => "unrecognized"

/-- Every kind. -/
def all : List OutputType :=
  [.pubKeyHash, .pubKey, .scriptHash, .multisig, .nullData, .unrecognized]

/-- The kind of a name. -/
def ofName? (name : String) : Option OutputType := all.find? (·.name == name)

/-- The kind of an output script. A multisig lock that stands by itself counts as unrecognized. -/
def ofScript (script : Script) : OutputType :=
  if (Template.pubKeyHash? script).isSome then .pubKeyHash
  else if (Template.pubKey? script).isSome then .pubKey
  else if (Template.scriptHash? script).isSome then .scriptHash
  else if (Template.nullData? script).isSome then .nullData
  else .unrecognized

end OutputType

end UtxoScript
