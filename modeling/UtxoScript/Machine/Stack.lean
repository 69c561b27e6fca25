import UtxoScript.Bytes

/-!
# The operand stack

A stack is the list of its items with the top first, so pushing is `::` and what lies below an
operation's operands is a tail of the list. Nothing but the items that an operation touches is
walked over: `reaches` asks for a depth without counting the whole stack.
-/

namespace UtxoScript

/-- The operand stack, top first. -/
abbrev Stack := List Bytes

namespace Stack

/-- The stack whose items are given bottom first. -/
def ofBottomFirst (items : List Bytes) : Stack := items.reverse

/-- The items, bottom first. -/
def bottomFirst (stack : Stack) : List Bytes := stack.reverse

/-- Whether there are at least `depth` items. -/
def reaches (depth : Nat) (stack : Stack) : Bool := (stack.take depth).length == depth

/-- A stack reaches a depth that is at most its length. -/
theorem reaches_iff {depth : Nat} {stack : Stack} :
    stack.reaches depth = true ↔ depth ≤ stack.length := by
  simp only [reaches, List.length_take, beq_iff_eq]
  omega

end Stack

/-- Whether an item counts as true: any item but the empty one does. -/
def Bytes.isTrue (item : Bytes) : Bool := !item.isEmpty

/-- The item that stands for a truth value. -/
def Bytes.ofBool : Bool → Bytes
  | true => [1]
  | false => []

/-- A truth value is read back from the item that stands for it. -/
@[simp] theorem Bytes.isTrue_ofBool (b : Bool) : (Bytes.ofBool b).isTrue = b := by
  cases b <;> rfl

end UtxoScript
