import UtxoScript.Json.Reader
import UtxoScript.Json.Writer
import UtxoScript.Network
import UtxoScript.Readable

/-!
# Data formats

The JSON forms of scripts, multisig locks, networks and hints. An element is an object with one
member, whose key names its kind. Bytes are arrays of numbers, and opcodes go by their tags.
-/

namespace UtxoScript

open Json (natural record string)

/-- Bytes as an array of numbers. -/
def Bytes.toJson (bytes : Bytes) : Json := .array (bytes.map (fun b => natural b.toNat))

/-- Bytes from an array of numbers. -/
def Bytes.ofJson? (json : Json) : Option Bytes := json.array?.bind (List.mapM Json.byte?)

namespace Element

/-- The data form of an element. -/
def toJson : Element → Json
  | .data bytes => record [("Data", bytes.toJson)]
  | .number n => record [("Number", natural n.toNat)]
  | .op opcode => record [("Op", string opcode.tag)]
  | .raw byte => record [("Raw", natural byte.toNat)]

/-- The element of a data form. -/
def ofJson? : Json → Option Element
  | .object [(some kind, value)] =>
    if kind = "Data" then (Bytes.ofJson? value).map .data
    else if kind = "Number" then ((value.below? UInt8.size).bind SmallInt.ofNat?).map .number
    else if kind = "Op" then (value.tag?.bind Opcode.ofTag?).map .op
    else if kind = "Raw" then value.byte?.map .raw
    else none
  | _ => none

end Element

namespace Script

/-- The data form of a script. -/
def toJson (script : Script) : Json := record [("elements", .array (script.map Element.toJson))]

/-- The script of a data form. -/
def ofJson? (json : Json) : Option Script :=
  match json.fields? ["elements"] with
  | some [some elements] => elements.array?.bind (List.mapM Element.ofJson?)
  | _ => none

/-- A script as JSON text. -/
def toJsonText (script : Script) : String := script.toJson.toText

/-- The script of a JSON text. -/
def ofJsonText? (text : String) : Option Script := (Json.read? text).bind ofJson?

end Script

/-- The data form of a multisig lock. -/
def Multisig.toJson (lock : Multisig) : Json :=
  record
    [("m", natural lock.required.toNat), ("n", natural lock.total.toNat),
      ("keys", .array (lock.keys.map Bytes.toJson))]

namespace Network

/-- The version byte of private keys where a data form does not give it. -/
def defaultPrivateKeyVersion : UInt8 := 0x80

/-- The network of a data form. Only the version byte of private keys may be missing. -/
def ofJson? (json : Json) : Option Network :=
  match json.fields? ["name", "pubkeyhash_version", "scripthash_version", "private_key_version",
      "magic", "port", "rpc_port"] with
  | some [some name, some key, some script, privateKey, some magic, some peer, some rpc] => do
    let name ← name.string?
    let pubKeyHashVersion ← key.byte?
    let scriptHashVersion ← script.byte?
    let privateKeyVersion ← privateKey.elim (some defaultPrivateKeyVersion) Json.byte?
    let magic ← magic.below? UInt32.size
    let peerPort ← peer.below? UInt16.size
    let rpcPort ← rpc.below? UInt16.size
    return { name, pubKeyHashVersion, scriptHashVersion, privateKeyVersion
             magic := UInt32.ofNat magic, peerPort := UInt16.ofNat peerPort
             rpcPort := UInt16.ofNat rpcPort }
  | _ => none

/-- The network of a JSON text. -/
def ofJsonText? (text : String) : Option Network := (Json.read? text).bind ofJson?

end Network

/-- The hint of a data form. -/
def Hint.ofJson? (json : Json) : Option Hint :=
  match json.fields? ["output_type", "role"] with
  | some [some outputType, some role] => do
    let outputType ← outputType.tag?.bind OutputType.ofName?
    let role ← role.tag?.bind Role.ofName?
    return { outputType, role }
  | _ => none

end UtxoScript
