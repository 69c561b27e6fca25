import UtxoScript.Machine.Run

/-!
# The machine in place

`step` says of an element what becomes of the stack, and a run puts together what its steps say.
Here the same scripts are executed on one state that is changed on the way: items are pushed and
popped one by one, the context is asked when its answer is needed, and messages are written as
things happen. Work tells by a truth value whether the script goes on.

The state lets an element do anything: it might push before it rejects, leave operands where they
were, or report twice or not at all. That none does, and that what is left is what `run` says, is to
be proved (`Machine.run_execute`).

Each opcode pops as it goes. So where it rejects, the operands popped by then are gone, and each
place where it rejects writes the report itself (`reject`).
-/

namespace UtxoScript

/-- How a message is written. -/
inductive Level
  /-- A report that something was rejected. -/
  | debug
  /-- A note that an element is started. -/
  | trace
  deriving DecidableEq, Repr

/-- A message. -/
structure Message where
  /-- How it is written. -/
  level : Level
  /-- Its wording. -/
  text : String
  deriving DecidableEq, Repr

/-- The state that scripts are executed on. -/
structure Machine where
  /-- The operand stack. -/
  stack : Stack
  /-- The questions asked, in order. -/
  calls : List Call
  /-- The messages written, in order. -/
  messages : List Message
  deriving DecidableEq, Repr

/-- Work on the machine. -/
abbrev Work := StateM Machine

namespace Machine

/-- The machine on which nothing has been asked and written yet. -/
def start (stack : Stack) : Machine := ⟨stack, [], []⟩

/-- The messages of a level, in order. -/
def messagesAt (m : Machine) (level : Level) : List String :=
  (m.messages.filter (·.level = level)).map (·.text)

/-! ## What an opcode has to work with -/

/-- Puts an item on top. -/
def push (item : Bytes) : Work Unit :=
  modify fun m => { m with stack := item :: m.stack }

/-- Takes the top item off, if there is one. -/
def pop : Work (Option Bytes) := do
  let m ← get
  set { m with stack := m.stack.tail }
  return m.stack.head?

/-- The top item, which stays. -/
def top : Work (Option Bytes) := return (← get).stack.head?

/-- The number of items. -/
def depth : Work Nat := return (← get).stack.length

/-- Writes a message. -/
def write (level : Level) (text : String) : Work Unit :=
  modify fun m => { m with messages := m.messages ++ [⟨level, text⟩] }

/-- Asks the context about a signature and a key. -/
def ask (ctx : Context) (signature publicKey : Bytes) : Work Bool := do
  let call := ctx.ask signature publicKey
  modify fun m => { m with calls := m.calls ++ [call] }
  return call.accepted

/-- Reports that an opcode rejects, and why. -/
def reject (op : Opcode) (cause : Cause) : Work Bool := do
  write .debug (Rejection.opcode op cause).message
  return false

/-- Makes of a verdict what the form of the opcode makes of it. -/
def finish (op : Opcode) (form : Form) (verdict : Bool) : Work Bool := do
  match form with
  | .push =>
    push (Bytes.ofBool verdict)
    return true
  | .verify => if verdict then return true else reject op .verificationFailed

/-! ## Operands -/

/-- Pops a number from one to `most`, written as a single byte. -/
def popCount (most : Nat) : Work (Option Nat) := do
  let some item ← pop | return none
  return count? most item

/-- Pops `n` items, each as `read?` reads it. Where the stack ends before them, and at the first
that cannot be read, the opcode is rejected on the spot. -/
def popEach {α : Type} (op : Opcode) (read? : Bytes → Option α) (missing bad : Cause) :
    Nat → Work (Option (List α))
  | 0 => return some []
  | n + 1 => do
    let some item ← pop
      | let _ ← reject op missing
        return none
    let some a := read? item
      | let _ ← reject op bad
        return none
    let some as ← popEach op read? missing bad n | return none
    return some (a :: as)

/-- Offers keys to a signature until one is accepted. What comes of it is whether one was, and the
keys that are left. -/
def offerEach (ctx : Context) (signature : Bytes) : List Bytes → Work (Bool × List Bytes)
  | [] => return (false, [])
  | key :: keys => do
    if ← ask ctx signature key then return (true, keys) else offerEach ctx signature keys

/-- Counts the signatures for which a key is accepted, when each is offered the keys that the ones
before it have left. -/
def countMatched (ctx : Context) : (signatures keys : List Bytes) → Work Nat
  | [], _ => return 0
  | signature :: signatures, keys => do
    let (found, left) ← offerEach ctx signature keys
    let later ← countMatched ctx signatures left
    return if found then later + 1 else later

/-! ## Opcodes -/

/-- Compares the two topmost items. Both are popped before it is known that they are there. -/
def executeEqual (op : Opcode) (form : Form) : Work Bool := do
  let a? ← pop
  let b? ← pop
  match a?, b? with
  | some a, some b => finish op form (a == b)
  | _, _ => reject op .fewerThanTwo

/-- Checks a signature. -/
def executeCheckSig (op : Opcode) (form : Form) (ctx? : Option Context) : Work Bool := do
  let some ctx := ctx? | reject op .noContext
  if (← depth) < 2 then
    return ← reject op .fewerThanTwo
  let key? ← pop
  let signature? ← pop
  let (some key, some signature) := (key?, signature?) | reject op .fewerThanTwo
  let some body := signatureBody? signature | reject op .sighashType
  let accepted ← ask ctx body key
  finish op form accepted

/-- Checks several signatures against several keys. -/
def executeCheckMultiSig (op : Opcode) (form : Form) (ctx? : Option Context) : Work Bool := do
  let some ctx := ctx? | reject op .noContext
  if (← depth) < 3 then
    return ← reject op .fewerThanThree
  let some n ← popCount maxKeys | reject op .keyCount
  if (← depth) < n + 1 then
    return ← reject op .missingKeys
  let some keys ← popEach op publicKey? .malformedKey .malformedKey n | return false
  let some m ← popCount n | reject op .signatureCount
  if (← depth) < m + 1 then
    return ← reject op .missingSignatures
  let some signatures ← popEach op signatureBody? .missingSignatures .sighashType m | return false
  -- The item below the signatures is dropped unread.
  let _ ← pop
  let verified ← countMatched ctx signatures keys
  finish op form (m ≤ verified)

/-- Executes an opcode. -/
def executeOpcode (ctx? : Option Context) (op : Opcode) : Work Bool := do
  match op with
  | .dup =>
    let some item ← top | reject op .emptyStack
    push item
    return true
  | .hash160 =>
    let some item ← pop | reject op .emptyStack
    push (hash160 item)
    return true
  | .equal => executeEqual op .push
  | .equalVerify => executeEqual op .verify
  | .checkSig => executeCheckSig op .push ctx?
  | .checkSigVerify => executeCheckSig op .verify ctx?
  | .checkMultiSig => executeCheckMultiSig op .push ctx?
  | .checkMultiSigVerify => executeCheckMultiSig op .verify ctx?
  | _ => reject op .unsupported

/-! ## Scripts -/

/-- Executes the element at the given position of a script. -/
def executeElement (ctx? : Option Context) (position : Nat) : Element → Work Bool
  | .data bytes => do
    push bytes
    return true
  | .number n => do
    write .debug (Rejection.smallInteger n position).message
    return false
  | .raw byte => do
    write .debug (Rejection.unnamedByte byte position).message
    return false
  | .op opcode => executeOpcode ctx? opcode

/-- Executes the part of a script that begins at the given position, up to the first element that
does not go on. -/
def executeFrom (ctx? : Option Context) (position : Nat) : Script → Work Bool
  | [] => return true
  | element :: rest => do
    write .trace (TraceEntry.mk position (← depth) element).message
    if ← executeElement ctx? position element then
      executeFrom ctx? (position + 1) rest
    else
      return false

/-- Executes a script. -/
def execute (ctx? : Option Context) (script : Script) : Work Bool := executeFrom ctx? 0 script

/-- Judges the spend of an output: executes the unlocking script and then the locking script, and
looks at the item on top. -/
def judge (ctx? : Option Context) (unlocking locking : Script) : Work Bool := do
  if !(← execute ctx? unlocking) then
    return false
  if !(← execute ctx? locking) then
    return false
  return (← top).any Bytes.isTrue

end Machine

end UtxoScript
