/-!
# Opcodes

The named opcodes. Each has its byte on the wire, its mnemonic and the tag by which the data formats
call it; the three are the columns of one table, `row`, and each column can be searched. No two
opcodes share a byte: `ofByte?_byte` and `byte_of_ofByte?` say that the search inverts the column.
The same holds of the mnemonics (`ofMnemonic?_mnemonic`, `mnemonic_of_ofMnemonic?`) and of the tags
(`ofTag?_tag`, `tag_of_ofTag?`).
-/

namespace UtxoScript

/-- A named opcode. -/
inductive Opcode
  -- Pushes behind a length field, and constants.
  | pushData1 | pushData2 | pushData4 | negate1 | reserved
  -- Control flow.
  | nop | ver | opIf | opNotIf | verIf | verNotIf | opElse | opEndIf | verify | opReturn
  -- Stack.
  | toAltStack | fromAltStack | drop2 | dup2 | dup3 | over2 | rot2 | swap2 | ifDup | depth | drop
  | dup | nip | over | pick | roll | rot | swap | tuck
  -- Byte strings.
  | cat | substr | left | right | size
  -- Bits and comparison.
  | invert | and | or | xor | equal | equalVerify | reserved1 | reserved2
  -- Arithmetic.
  | add1 | sub1 | mul2 | div2 | negate | abs | not | notEqual0 | add | sub | mul | div | mod
  | lShift | rShift | boolAnd | boolOr | numEqual | numEqualVerify | numNotEqual | lessThan
  | greaterThan | lessThanOrEqual | greaterThanOrEqual | min | max | within
  -- Hashes and signatures.
  | ripemd160 | sha1 | sha256 | hash160 | hash256 | codeSeparator | checkSig | checkSigVerify
  | checkMultiSig | checkMultiSigVerify
  -- Bytes reserved for templates.
  | pubKeyHash | pubKey | invalidOpcode
  deriving DecidableEq, Repr

namespace Opcode

/-- What the opcode table holds of one opcode. -/
structure Row where
  /-- The byte on the wire. -/
  byte : UInt8
  /-- The name in readable scripts. -/
  mnemonic : String
  /-- The name in the data formats. -/
  tag : String

/-- The opcode table. -/
def row : Opcode → Row
  | .pushData1 => ⟨0x4c, "OP_PUSHDATA1", "PushData1"⟩
  | .pushData2 => ⟨0x4d, "OP_PUSHDATA2", "PushData2"⟩
  | .pushData4 => ⟨0x4e, "OP_PUSHDATA4", "PushData4"⟩
  | .negate1 => ⟨0x4f, "OP_1NEGATE", "Negate1"⟩
  | .reserved => ⟨0x50, "OP_RESERVED", "Reserved"⟩
  | .nop => ⟨0x61, "OP_NOP", "Nop"⟩
  | .ver => ⟨0x62, "OP_VER", "Ver"⟩
  | .opIf => ⟨0x63, "OP_IF", "If"⟩
  | .opNotIf => ⟨0x64, "OP_NOTIF", "NotIf"⟩
  | .verIf => ⟨0x65, "OP_VERIF", "VerIf"⟩
  | .verNotIf => ⟨0x66, "OP_VERNOTIF", "VerNotIf"⟩
  | .opElse => ⟨0x67, "OP_ELSE", "Else"⟩
  | .opEndIf => ⟨0x68, "OP_ENDIF", "EndIf"⟩
  | .verify => ⟨0x69, "OP_VERIFY", "Verify"⟩
  | .opReturn => ⟨0x6a, "OP_RETURN", "Return"⟩
  | .toAltStack => ⟨0x6b, "OP_TOALTSTACK", "ToAltStack"⟩
  | .fromAltStack => ⟨0x6c, "OP_FROMALTSTACK", "FromAltStack"⟩
  | .drop2 => ⟨0x6d, "OP_2DROP", "Drop2"⟩
  | .dup2 => ⟨0x6e, "OP_2DUP", "Dup2"⟩
  | .dup3 => ⟨0x6f, "OP_3DUP", "Dup3"⟩
  | .over2 => ⟨0x70, "OP_2OVER", "Over2"⟩
  | .rot2 => ⟨0x71, "OP_2ROT", "Rot2"⟩
  | .swap2 => ⟨0x72, "OP_2SWAP", "Swap2"⟩
  | .ifDup => ⟨0x73, "OP_IFDUP", "IfDup"⟩
  | .depth => ⟨0x74, "OP_DEPTH", "Depth"⟩
  | .drop => ⟨0x75, "OP_DROP", "Drop"⟩
  | .dup => ⟨0x76, "OP_DUP", "Dup"⟩
  | .nip => ⟨0x77, "OP_NIP", "Nip"⟩
  | .over => ⟨0x78, "OP_OVER", "Over"⟩
  | .pick => ⟨0x79, "OP_PICK", "Pick"⟩
  | .roll => ⟨0x7a, "OP_ROLL", "Roll"⟩
  | .rot => ⟨0x7b, "OP_ROT", "Rot"⟩
  | .swap => ⟨0x7c, "OP_SWAP", "Swap"⟩
  | .tuck => ⟨0x7d, "OP_TUCK", "Tuck"⟩
  | .cat => ⟨0x7e, "OP_CAT", "Cat"⟩
  | .substr => ⟨0x7f, "OP_SUBSTR", "Substr"⟩
  | .left => ⟨0x80, "OP_LEFT", "Left"⟩
  | .right => ⟨0x81, "OP_RIGHT", "Right"⟩
  | .size => ⟨0x82, "OP_SIZE", "Size"⟩
  | .invert => ⟨0x83, "OP_INVERT", "Invert"⟩
  | .and => ⟨0x84, "OP_AND", "And"⟩
  | .or => ⟨0x85, "OP_OR", "Or"⟩
  | .xor => ⟨0x86, "OP_XOR", "Xor"⟩
  | .equal => ⟨0x87, "OP_EQUAL", "Equal"⟩
  | .equalVerify => ⟨0x88, "OP_EQUALVERIFY", "EqualVerify"⟩
  | .reserved1 => ⟨0x89, "OP_RESERVED1", "Reserved1"⟩
  | .reserved2 => ⟨0x8a, "OP_RESERVED2", "Reserved2"⟩
  | .add1 => ⟨0x8b, "OP_1ADD", "Add1"⟩
  | .sub1 => ⟨0x8c, "OP_1SUB", "Sub1"⟩
  | .mul2 => ⟨0x8d, "OP_2MUL", "Mul2"⟩
  | .div2 => ⟨0x8e, "OP_2DIV", "Div2"⟩
  | .negate => ⟨0x8f, "OP_NEGATE", "Negate"⟩
  | .abs => ⟨0x90, "OP_ABS", "Abs"⟩
  | .not => ⟨0x91, "OP_NOT", "Not"⟩
  | .notEqual0 => ⟨0x92, "OP_0NOTEQUAL", "NotEqual0"⟩
  | .add => ⟨0x93, "OP_ADD", "Add"⟩
  | .sub => ⟨0x94, "OP_SUB", "Sub"⟩
  | .mul => ⟨0x95, "OP_MUL", "Mul"⟩
  | .div => ⟨0x96, "OP_DIV", "Div"⟩
  | .mod => ⟨0x97, "OP_MOD", "Mod"⟩
  | .lShift => ⟨0x98, "OP_LSHIFT", "LShift"⟩
  | .rShift => ⟨0x99, "OP_RSHIFT", "RShift"⟩
  | .boolAnd => ⟨0x9a, "OP_BOOLAND", "BoolAnd"⟩
  | .boolOr => ⟨0x9b, "OP_BOOLOR", "BoolOr"⟩
  | .numEqual => ⟨0x9c, "OP_NUMEQUAL", "NumEqual"⟩
  | .numEqualVerify => ⟨0x9d, "OP_NUMEQUALVERIFY", "NumEqualVerify"⟩
  | .numNotEqual => ⟨0x9e, "OP_NUMNOTEQUAL", "NumNotEqual"⟩
  | .lessThan => ⟨0x9f, "OP_LESSTHAN", "LessThan"⟩
  | .greaterThan => ⟨0xa0, "OP_GREATERTHAN", "GreaterThan"⟩
  | .lessThanOrEqual => ⟨0xa1, "OP_LESSTHANOREQUAL", "LessThanOrEqual"⟩
  | .greaterThanOrEqual => ⟨0xa2, "OP_GREATERTHANOREQUAL", "GreaterThanOrEqual"⟩
  | .min => ⟨0xa3, "OP_MIN", "Min"⟩
  | .max => ⟨0xa4, "OP_MAX", "Max"⟩
  | .within => ⟨0xa5, "OP_WITHIN", "Within"⟩
  | .ripemd160 => ⟨0xa6, "OP_RIPEMD160", "Ripemd160"⟩
  | .sha1 => ⟨0xa7, "OP_SHA1", "Sha1"⟩
  | .sha256 => ⟨0xa8, "OP_SHA256", "Sha256"⟩
  | .hash160 => ⟨0xa9, "OP_HASH160", "Hash160"⟩
  | .hash256 => ⟨0xaa, "OP_HASH256", "Hash256"⟩
  | .codeSeparator => ⟨0xab, "OP_CODESEPARATOR", "CodeSeparator"⟩
  | .checkSig => ⟨0xac, "OP_CHECKSIG", "CheckSig"⟩
  | .checkSigVerify => ⟨0xad, "OP_CHECKSIGVERIFY", "CheckSigVerify"⟩
  | .checkMultiSig => ⟨0xae, "OP_CHECKMULTISIG", "CheckMultiSig"⟩
  | .checkMultiSigVerify => ⟨0xaf, "OP_CHECKMULTISIGVERIFY", "CheckMultiSigVerify"⟩
  | .pubKeyHash => ⟨0xfd, "OP_PUBKEYHASH", "PubKeyHash"⟩
  | .pubKey => ⟨0xfe, "OP_PUBKEY", "PubKey"⟩
  | .invalidOpcode => ⟨0xff, "OP_INVALIDOPCODE", "InvalidOpcode"⟩

/-- The byte of an opcode on the wire. -/
def byte (op : Opcode) : UInt8 := op.row.byte

/-- The name of an opcode in readable scripts. -/
def mnemonic (op : Opcode) : String := op.row.mnemonic

/-- The name of an opcode in the data formats. -/
def tag (op : Opcode) : String := op.row.tag

/-- Every opcode, in the order of the bytes. -/
def all : List Opcode :=
  [.pushData1, .pushData2, .pushData4, .negate1, .reserved, .nop, .ver, .opIf, .opNotIf, .verIf,
   .verNotIf, .opElse, .opEndIf, .verify, .opReturn, .toAltStack, .fromAltStack, .drop2, .dup2,
   .dup3, .over2, .rot2, .swap2, .ifDup, .depth, .drop, .dup, .nip, .over, .pick, .roll, .rot,
   .swap, .tuck, .cat, .substr, .left, .right, .size, .invert, .and, .or, .xor, .equal,
   .equalVerify, .reserved1, .reserved2, .add1, .sub1, .mul2, .div2, .negate, .abs, .not,
   .notEqual0, .add, .sub, .mul, .div, .mod, .lShift, .rShift, .boolAnd, .boolOr, .numEqual,
   .numEqualVerify, .numNotEqual, .lessThan, .greaterThan, .lessThanOrEqual, .greaterThanOrEqual,
   .min, .max, .within, .ripemd160, .sha1, .sha256, .hash160, .hash256, .codeSeparator,
   .checkSig, .checkSigVerify, .checkMultiSig, .checkMultiSigVerify, .pubKeyHash, .pubKey,
   .invalidOpcode]

/-- The opcode of a byte, if the byte is named. -/
def ofByte? (b : UInt8) : Option Opcode := all.find? (·.byte == b)

/-- The opcode of a mnemonic. -/
def ofMnemonic? (name : String) : Option Opcode := all.find? (·.mnemonic == name)

/-- The opcode of a tag. -/
def ofTag? (name : String) : Option Opcode := all.find? (·.tag == name)

/-- The four opcodes that check signatures. -/
def isSignatureCheck : Opcode → Bool
  | .checkSig | .checkSigVerify | .checkMultiSig | .checkMultiSigVerify => true
  | _ => false

/-- No opcode is missing from the list. -/
theorem mem_all (op : Opcode) : op ∈ all := by
  cases op <;> decide

/-- An opcode is found by its byte. -/
@[simp] theorem ofByte?_byte (op : Opcode) : ofByte? op.byte = some op := by
  have hall : ∀ op ∈ all, ofByte? op.byte = some op := by decide +kernel
  exact hall op (mem_all op)

/-- The opcode found by a byte has that byte. -/
theorem byte_of_ofByte? {b : UInt8} {op : Opcode} (h : ofByte? b = some op) : op.byte = b := by
  simpa using List.find?_some h

/-- An opcode is found by its mnemonic. -/
@[simp] theorem ofMnemonic?_mnemonic (op : Opcode) : ofMnemonic? op.mnemonic = some op := by
  have hall : ∀ op ∈ all, ofMnemonic? op.mnemonic = some op := by decide +kernel
  exact hall op (mem_all op)

/-- The opcode found by a mnemonic has that mnemonic. -/
theorem mnemonic_of_ofMnemonic? {name : String} {op : Opcode} (h : ofMnemonic? name = some op) :
    op.mnemonic = name := by
  simpa using List.find?_some h

/-- An opcode is found by its tag. -/
@[simp] theorem ofTag?_tag (op : Opcode) : ofTag? op.tag = some op := by
  have hall : ∀ op ∈ all, ofTag? op.tag = some op := by decide +kernel
  exact hall op (mem_all op)

/-- The opcode found by a tag has that tag. -/
theorem tag_of_ofTag? {name : String} {op : Opcode} (h : ofTag? name = some op) :
    op.tag = name := by
  simpa using List.find?_some h

end Opcode

end UtxoScript
