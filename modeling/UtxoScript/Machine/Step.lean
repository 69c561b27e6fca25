import UtxoScript.Machine.Multisig
import UtxoScript.Script

/-!
# One step of the machine

The machine runs pushes and eight opcodes. An element says what it does to the stack instead of
giving a new one: how many items it takes off the top, and the one item that it may push then. So
what lies deeper is out of its reach, and a rejection pushes nothing. `Outcome.length_onto` gives
the depth of the stack that results.

Three of the opcodes check something and come in two forms: the plain form pushes the verdict, the
other form rejects unless the verdict is true. The checks themselves do not know the form
(`Check.conclude` is the only place where they differ).
-/

namespace UtxoScript

/-- What one element does. -/
structure Outcome where
  /-- How many items it takes off the top, also where it rejects. -/
  taken : Nat
  /-- The questions it asked, in order. -/
  calls : List Call
  /-- Why it rejects, or the item that it pushes, if it pushes one. -/
  result : Except Rejection (Option Bytes)

/-- How a check ends. -/
inductive Check
  /-- The operands are refused. -/
  | refused (refusal : Refusal)
  /-- The verdict, the questions asked for it, and the number of operands. -/
  | judged (verdict : Bool) (calls : List Call) (operands : Nat)

/-- What becomes of a verdict. -/
inductive Form
  /-- It is pushed. -/
  | push
  /-- It has to be true, and nothing is pushed. -/
  | verify
  deriving DecidableEq

namespace Outcome

/-- The element takes items off the top, pushes another and asks nothing. -/
def pushed (taken : Nat) (item : Bytes) : Outcome := ⟨taken, [], .ok (some item)⟩

/-- The opcode rejects and has asked nothing. -/
def refused (op : Opcode) (cause : Cause) (taken : Nat) : Outcome :=
  ⟨taken, [], .error (.opcode op cause)⟩

/-- What is pushed, which is nothing where the element rejects. -/
def item? (outcome : Outcome) : Option Bytes :=
  match outcome.result with
  | .error _ => none
  | .ok item => item

/-- Why the element rejects, if it does. -/
def rejection? (outcome : Outcome) : Option Rejection :=
  match outcome.result with
  | .error rejection => some rejection
  | .ok _ => none

/-- The stack that an element leaves of the one it found. -/
def onto (outcome : Outcome) (stack : Stack) : Stack :=
  match outcome.item? with
  | none => stack.drop outcome.taken
  | some item => item :: stack.drop outcome.taken

/-- The depth that an element leaves, from the depth it found. -/
def depthOnto (outcome : Outcome) (depth : Nat) : Nat :=
  match outcome.item? with
  | none => depth - outcome.taken
  | some _ => depth - outcome.taken + 1

/-- The depth that an element leaves is the depth of the stack that it leaves. -/
@[simp] theorem length_onto (outcome : Outcome) (stack : Stack) :
    (outcome.onto stack).length = outcome.depthOnto stack.length := by
  unfold onto depthOnto
  split <;> simp

end Outcome

/-- What an opcode of the given form makes of a check. -/
def Check.conclude (op : Opcode) (form : Form) : Check → Outcome
  | .refused refusal => .refused op refusal.cause refusal.taken
  | .judged verdict calls operands =>
    match form, verdict with
    | .push, _ => ⟨operands, calls, .ok (some (Bytes.ofBool verdict))⟩
    | .verify, true => ⟨operands, calls, .ok none⟩
    | .verify, false => ⟨operands, calls, .error (.opcode op .verificationFailed)⟩

/-- Compares the two topmost items. A single item is taken off before it is found to be alone. -/
def checkEqual : Stack → Check
  | a :: b :: _ => .judged (a == b) [] 2
  | [_] => .refused ⟨.fewerThanTwo, 1⟩
  | [] => .refused ⟨.fewerThanTwo, 0⟩

/-- Checks the signature below the key on top. -/
def checkSignature : Option Context → Stack → Check
  | none, _ => .refused ⟨.noContext, 0⟩
  | some ctx, key :: signature :: _ =>
    match signatureBody? signature with
    | none => .refused ⟨.sighashType, 2⟩
    | some body =>
      let call := ctx.ask body key
      .judged call.accepted [call] 2
  | some _, _ => .refused ⟨.fewerThanTwo, 0⟩

/-- Checks several signatures against several keys. -/
def checkSignatures : Option Context → Stack → Check
  | none, _ => .refused ⟨.noContext, 0⟩
  | some ctx, stack =>
    match takeOperands stack with
    | .error refusal => .refused refusal
    | .ok operands =>
      let calls := offers ctx operands.signatures operands.keys
      .judged (allMatched operands.signatures calls) calls operands.depth

/-- Runs an opcode. -/
def stepOpcode (ctx : Option Context) (op : Opcode) (stack : Stack) : Outcome :=
  match op with
  | .dup =>
    match stack with
    | top :: _ => .pushed 0 top
    | [] => .refused op .emptyStack 0
  | .hash160 =>
    match stack with
    | top :: _ => .pushed 1 (hash160 top)
    | [] => .refused op .emptyStack 0
  | .equal => (checkEqual stack).conclude op .push
  | .equalVerify => (checkEqual stack).conclude op .verify
  | .checkSig => (checkSignature ctx stack).conclude op .push
  | .checkSigVerify => (checkSignature ctx stack).conclude op .verify
  | .checkMultiSig => (checkSignatures ctx stack).conclude op .push
  | .checkMultiSigVerify => (checkSignatures ctx stack).conclude op .verify
  | _ => .refused op .unsupported 0

/-- Runs the element at the given position of a script. -/
def step (ctx : Option Context) (position : Nat) (element : Element) (stack : Stack) : Outcome :=
  match element with
  | .data bytes => .pushed 0 bytes
  | .number n => ⟨0, [], .error (.smallInteger n position)⟩
  | .raw byte => ⟨0, [], .error (.unnamedByte byte position)⟩
  | .op opcode => stepOpcode ctx opcode stack

end UtxoScript
