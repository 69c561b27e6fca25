import UtxoScript.Machine.Context
import UtxoScript.Machine.Rejection
import UtxoScript.Machine.Stack
import UtxoScript.Sighash

/-!
# Operands and matching of multiple signatures

From the top a multisig check finds the number of keys, the keys, the number of signatures, the
signatures, and one item that it drops unread. The signatures and the keys are then matched in one
pass: the first signature is offered the keys one after another until one fits, the next signature
goes on behind that key, and so on. `length_offers_le` says that no key is offered twice.
-/

namespace UtxoScript

/-- The largest number of keys that a check takes. -/
def maxKeys : Nat := 3

/-- The shortest public key, a compressed one. -/
def minPublicKeyLength : Nat := 33

/-- The longest public key, an uncompressed one. -/
def maxPublicKeyLength : Nat := 65

/-- A signature without its sighash byte, which must be there and cover everything. -/
def signatureBody? (signature : Bytes) : Option Bytes :=
  if signature.getLast? = some Sighash.all.byte then some signature.dropLast else none

/-- A public key of a length that public keys have. -/
def publicKey? (item : Bytes) : Option Bytes :=
  if minPublicKeyLength ≤ item.length ∧ item.length ≤ maxPublicKeyLength then some item else none

/-- A number of keys or signatures: one byte, from one to `most`. -/
def count? (most : Nat) : Bytes → Option Nat
  | [n] => if 1 ≤ n.toNat ∧ n.toNat ≤ most then some n.toNat else none
  | _ => none

/-- A cause, with the number of items that have left the stack when it is given. -/
structure Refusal where
  /-- Why the operands are refused. -/
  cause : Cause
  /-- How many items have been taken off the top. -/
  taken : Nat
  deriving DecidableEq

/-- Takes `n` items from the top, each as `read?` reads it, when `taken` items have gone before
them. The cause is `missing` where the stack ends before them, and `bad` at the first item that
cannot be read, which has gone too then. -/
def takeItems {α : Type} (read? : Bytes → Option α) (missing bad : Cause) (taken : Nat) :
    Nat → Stack → Except Refusal (List α × Stack)
  | 0, stack => .ok ([], stack)
  | _ + 1, [] => .error ⟨missing, taken⟩
  | n + 1, item :: below =>
    match read? item with
    | none => .error ⟨bad, taken + 1⟩
    | some a => (takeItems read? missing bad (taken + 1) n below).map (fun r => (a :: r.1, r.2))

/-- Takes a count from the top, when `taken` items have gone before it. -/
def takeCount (most : Nat) (cause : Cause) (taken : Nat) : Stack → Except Refusal (Nat × Stack)
  | [] => .error ⟨cause, taken⟩
  | item :: below =>
    match count? most item with
    | none => .error ⟨cause, taken + 1⟩
    | some n => .ok (n, below)

/-- Refuses a stack of fewer than `depth` items, when `taken` items have gone. -/
def requireDepth (depth : Nat) (cause : Cause) (taken : Nat) (stack : Stack) :
    Except Refusal Unit :=
  if stack.reaches depth then .ok () else .error ⟨cause, taken⟩

/-- The operands of a multisig check. -/
structure MultisigOperands where
  /-- The keys, the topmost first. -/
  keys : List Bytes
  /-- The signatures without their sighash bytes, the topmost first. -/
  signatures : List Bytes

/-- How many items the operands take up: besides the keys and the signatures, the two counts and the
item that is dropped. -/
def MultisigOperands.depth (operands : MultisigOperands) : Nat :=
  operands.keys.length + operands.signatures.length + 3

/-- Takes the operands of a multisig check from the stack. Behind each count there has to be one
item more than it announces. The numbers of items that have gone are written beside the stack that
is handed on, and `Machine.run_executeCheckMultiSig_of_refused` says that they are what it has
lost. -/
def takeOperands (stack : Stack) : Except Refusal MultisigOperands := do
  requireDepth 3 .fewerThanThree 0 stack
  let (n, stack) ← takeCount maxKeys .keyCount 0 stack
  requireDepth (n + 1) .missingKeys 1 stack
  let (keys, stack) ← takeItems publicKey? .malformedKey .malformedKey 1 n stack
  let (m, stack) ← takeCount n .signatureCount (n + 1) stack
  requireDepth (m + 1) .missingSignatures (n + 2) stack
  let (signatures, _) ← takeItems signatureBody? .missingSignatures .sighashType (n + 2) m stack
  return ⟨keys, signatures⟩

/-- The questions asked while signatures are matched with keys: each key is offered once, to the
first signature that is not matched yet, until the signatures or the keys run out. -/
def offers (ctx : Context) : (signatures keys : List Bytes) → List Call
  | [], _ => []
  | _, [] => []
  | signature :: signatures, key :: keys =>
    let call := ctx.ask signature key
    call :: offers ctx (if call.accepted then signatures else signature :: signatures) keys

/-- There are no more offers than keys. -/
theorem length_offers_le (ctx : Context) (signatures keys : List Bytes) :
    (offers ctx signatures keys).length ≤ keys.length := by
  induction keys generalizing signatures with
  | nil => cases signatures <;> simp [offers]
  | cons key keys ih =>
    cases signatures with
    | nil => simp [offers]
    | cons signature signatures => simpa [offers] using ih _

/-- Whether every signature found a key: as many offers were accepted as there are signatures. -/
def allMatched (signatures : List Bytes) (calls : List Call) : Bool :=
  signatures.length ≤ calls.countP (·.accepted)

end UtxoScript
