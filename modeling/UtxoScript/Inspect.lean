import UtxoScript.Script

/-!
# Elements in diagnostics

The form in which traces show an element. It names the kind of the element and, unlike the readable
form, tells any two elements apart.
-/

namespace UtxoScript

/-- Numbers in brackets, with commas between them. -/
def inspectBytes (bytes : Bytes) : String :=
  "[" ++ ", ".intercalate (bytes.map (fun b => toString b.toNat)) ++ "]"

/-- A small integer in diagnostics. -/
def SmallInt.inspect (n : SmallInt) : String := "SmallInt(" ++ toString n.toNat ++ ")"

/-- An element in diagnostics. -/
def Element.inspect : Element → String
  | .data bytes => "Data(" ++ inspectBytes bytes ++ ")"
  | .number n => "Number(" ++ n.inspect ++ ")"
  | .op opcode => "Op(" ++ opcode.tag ++ ")"
  | .raw byte => "Raw(" ++ toString byte.toNat ++ ")"

end UtxoScript
