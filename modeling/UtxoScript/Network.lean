import UtxoScript.Address
import UtxoScript.Template

/-!
# Networks

The parameters that tell one ledger from another, the networks that are built in, and the addresses
of scripts, which depend on the network through its version bytes alone.
-/

namespace UtxoScript

/-- The parameters of a network. -/
structure Network where
  /-- The name. -/
  name : String
  /-- The version byte of addresses of keys. -/
  pubKeyHashVersion : UInt8
  /-- The version byte of addresses of scripts. -/
  scriptHashVersion : UInt8
  /-- The version byte of private keys in text. -/
  privateKeyVersion : UInt8
  /-- The number that begins every message between peers. -/
  magic : UInt32
  /-- The port for peers. -/
  peerPort : UInt16
  /-- The port for remote calls. -/
  rpcPort : UInt16
  deriving DecidableEq, Repr

namespace Network

/-- The main network. -/
def mainnet : Network :=
  { name := "mainnet", pubKeyHashVersion := 0x00, scriptHashVersion := 0x05
    privateKeyVersion := 0x80, magic := 0xd9b4bef9, peerPort := 8333, rpcPort := 8332 }

/-- The third test network. -/
def testnet3 : Network :=
  { name := "testnet3", pubKeyHashVersion := 0x6f, scriptHashVersion := 0xc4
    privateKeyVersion := 0x6e, magic := 0x0709110b, peerPort := 18333, rpcPort := 18332 }

/-- The networks that are built in, in the order of their names. -/
def builtIn : List Network := [mainnet, testnet3]

/-- The names of the networks that are built in. -/
def names : List String := builtIn.map Network.name

/-- The built-in network of a name. -/
def ofName? (name : String) : Option Network := builtIn.find? (·.name == name)

/-- The report that no built-in network has this name. -/
def unknown (name : String) : String := "Unknown network: " ++ name

/-- The environment variable that selects a network. -/
def environmentVariable : String := "CONSENSUS_SCRIPT_NETWORK"

/-- The network selected by the value of the environment variable, or the main network where the
variable is not set. -/
def selected? : Option String → Option Network
  | none => some mainnet
  | some name => ofName? name

/-- The reports made while a network was selected. -/
def selectionLog : Option String → List String
  | none => []
  | some name => ["network selected from " ++ environmentVariable ++ ": " ++ name]

end Network

namespace Address

/-- The address of a key digest. -/
def ofKeyHash (network : Network) (hash : Bytes) : Address := ⟨network.pubKeyHashVersion, hash⟩

/-- The address of a public key. -/
def ofKey (network : Network) (key : Bytes) : Address := ofKeyHash network (hash160 key)

/-- The address of a script digest. -/
def ofScriptHash (network : Network) (hash : Bytes) : Address := ⟨network.scriptHashVersion, hash⟩

/-- The addresses that a script pays to or spends from. The first template that fits decides: a
multisig lock has one address for every key, an input that reveals one has that of the revealed
script, and a script without a template has none. -/
def ofScript (network : Network) (script : Script) : List Address :=
  if let some hash := Template.pubKeyHash? script then [ofKeyHash network hash]
  else if let some key := Template.pubKey? script then [ofKey network key]
  else if let some (_, key) := Template.pubKeyHashSpend? script then [ofKey network key]
  else if let some hash := Template.scriptHash? script then [ofScriptHash network hash]
  else if let some lock := Multisig.ofScript? script then lock.keys.map (ofKey network)
  else if (Template.scriptHashSpend? script).isSome then
    let redeem := (Template.redeemScript? script).toList
    redeem.map (fun bytes => ofScriptHash network (hash160 bytes))
  else []

end Address

end UtxoScript
