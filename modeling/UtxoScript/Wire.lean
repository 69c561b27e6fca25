import UtxoScript.Script
import UtxoScript.Text.Hex

/-!
# The wire form of scripts

A push of up to `0x4b` bytes is its length and the bytes. Longer pushes stand behind one of three
opcodes and a length field of one, two or four bytes, least significant byte first. Small integers
and opcodes are one byte each.

Reading never fails. A push that the input cuts short keeps the bytes that are there, a length field
that is cut short counts as the empty push, and either ends the script; `Truncation` tells which
happened and where. Writing takes the shortest header that holds the length. `decodeAfter_eq` frees
statements about reading from the elements read before.
-/

namespace UtxoScript

/-- How the input ended inside a push. Offsets count bytes from the start of the input. -/
inductive Truncation
  /-- The push whose bytes begin at `offset` announces `wanted` bytes, and `remaining` are there. -/
  | payload (offset wanted remaining : Nat)
  /-- The length field that begins at `offset` is not complete. -/
  | lengthField (offset : Nat)
  deriving DecidableEq, Repr

/-- The report of a truncation. -/
def Truncation.message : Truncation → String
  | .payload offset wanted remaining =>
    "truncated push at offset " ++ toString offset ++ ": wanted " ++ toString wanted ++ " bytes, "
      ++ toString remaining ++ " remain"
  | .lengthField offset => "truncated length field at offset " ++ toString offset

/-- A script as it was read. -/
structure Decoded where
  /-- The elements. -/
  script : Script
  /-- Where the last push was cut short, if it was. -/
  truncation : Option Truncation
  deriving DecidableEq

/-- The reports made while a script was read: at most one. -/
def Decoded.log (decoded : Decoded) : List String :=
  (decoded.truncation.map Truncation.message).toList

namespace Wire

/-- The longest push whose header is its length alone. -/
def maxDirectPush : Nat := 0x4b

/-! ## Reading -/

/-- What stands at the front of the input. -/
inductive Item
  /-- An element, and the bytes after it. -/
  | complete (element : Element) (rest : Bytes)
  /-- A push of `wanted` bytes of which only `payload` is there. -/
  | cutPayload (wanted : Nat) (payload : Bytes)
  /-- A length field of which only `field` is there. -/
  | cutLength (field : Bytes)

/-- A push of `length` bytes. -/
def takePush (length : Nat) (bytes : Bytes) : Item :=
  let payload := bytes.take length
  if payload.length < length then .cutPayload length payload
  else .complete (.data payload) (bytes.drop length)

/-- A push behind a length field of `width` bytes. -/
def takeSizedPush (width : Nat) (bytes : Bytes) : Item :=
  let field := bytes.take width
  if field.length < width then .cutLength field
  else takePush (Bytes.toNatLE field) (bytes.drop width)

/-- The width of the length field behind an opcode that announces a push. -/
def lengthWidth? : Opcode → Option Nat
  | .pushData1 => some 1
  | .pushData2 => some 2
  | .pushData4 => some 4
  | _ => none

/-- The item that begins with `byte` and goes on in `rest`. -/
def readItem (byte : UInt8) (rest : Bytes) : Item :=
  if byte.toNat ≤ maxDirectPush then takePush byte.toNat rest
  else
    match SmallInt.ofWire? byte, Opcode.ofByte? byte with
    | some n, _ => .complete (.number n) rest
    | none, none => .complete (.raw byte) rest
    | none, some op =>
      match lengthWidth? op with
      | some width => takeSizedPush width rest
      | none => .complete (.op op) rest

/-- What is left after an item is no longer than what was there behind its first byte. -/
theorem length_rest_le {byte : UInt8} {bytes rest : Bytes} {element : Element}
    (h : readItem byte bytes = .complete element rest) : rest.length ≤ bytes.length := by
  have push {length : Nat} {bytes : Bytes} (h : takePush length bytes = .complete element rest) :
      rest.length ≤ bytes.length := by
    simp only [takePush] at h
    split at h
    · contradiction
    · cases h
      simp
  unfold readItem at h
  split at h
  · exact push h
  · split at h
    · cases h
      exact Nat.le_refl _
    · cases h
      exact Nat.le_refl _
    · split at h
      · simp only [takeSizedPush] at h
        split at h
        · contradiction
        · have := push h
          simp only [List.length_drop] at this
          omega
      · cases h
        exact Nat.le_refl _

/-- Reads the rest of an input of `size` bytes, behind the elements already read, which come last
first. An item that is cut short reaches to the end, so its place follows from its length. -/
def decodeAfter (size : Nat) (done : Script) (bytes : Bytes) : Decoded :=
  match bytes with
  | [] => ⟨done.reverse, none⟩
  | byte :: rest =>
    match _item : readItem byte rest with
    | .complete element rest' => decodeAfter size (element :: done) rest'
    | .cutPayload wanted payload =>
      ⟨(.data payload :: done).reverse,
        some (.payload (size - payload.length) wanted payload.length)⟩
    | .cutLength field =>
      ⟨(.data [] :: done).reverse, some (.lengthField (size - field.length))⟩
termination_by bytes.length
decreasing_by exact Nat.lt_succ_of_le (length_rest_le (by assumption))

/-- Reads a script. -/
def decode (bytes : Bytes) : Decoded := decodeAfter bytes.length [] bytes

/-- Reads a script written in hexadecimal. -/
def decodeHex (text : String) : Except Text.Hex.Fault Decoded := (Text.Hex.decode text).map decode

/-- The elements already read stand in front. -/
theorem decodeAfter_eq (size : Nat) (done : Script) (bytes : Bytes) :
    decodeAfter size done bytes =
      ⟨done.reverse ++ (decodeAfter size [] bytes).script,
        (decodeAfter size [] bytes).truncation⟩ := by
  match bytes with
  | [] => simp [decodeAfter]
  | byte :: rest =>
    cases h : readItem byte rest with
    | complete element rest' =>
      have := length_rest_le h
      have step (done : Script) :
          decodeAfter size done (byte :: rest) = decodeAfter size (element :: done) rest' := by
        rw [decodeAfter]
        split <;> simp_all
      rw [step, step, decodeAfter_eq size (element :: done), decodeAfter_eq size [element]]
      simp
    | cutPayload wanted payload =>
      rw [decodeAfter, decodeAfter]
      split <;> simp_all
    | cutLength field =>
      rw [decodeAfter, decodeAfter]
      split <;> simp_all
termination_by bytes.length

/-! ## Writing -/

/-- The shortest header of a push of `length` bytes. A length of four bytes is written modulo
`2 ^ 32`. -/
def pushHeader (length : Nat) : Bytes :=
  if length ≤ maxDirectPush then [UInt8.ofNat length]
  else if length ≤ 0xff then Opcode.pushData1.byte :: Bytes.ofNatLE 1 length
  else if length ≤ 0xffff then Opcode.pushData2.byte :: Bytes.ofNatLE 2 length
  else Opcode.pushData4.byte :: Bytes.ofNatLE 4 length

/-- The wire form of an element. -/
def encodeElement : Element → Bytes
  | .data bytes => pushHeader bytes.length ++ bytes
  | .number n => [n.toWire]
  | .op opcode => [opcode.byte]
  | .raw byte => [byte]

/-- The wire form of a script. -/
def encode (script : Script) : Bytes := script.flatMap encodeElement

/-- The wire form of a script in hexadecimal. -/
def encodeHex (script : Script) : String := Text.Hex.encode (encode script)

end Wire

end UtxoScript
