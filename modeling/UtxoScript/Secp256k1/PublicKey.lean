import UtxoScript.Bytes
import UtxoScript.Secp256k1.Curve

/-!
# Public keys

A public key is a point of the curve. Its compressed form is a tag for the parity of the second
coordinate and the first coordinate. The full form has both coordinates behind a tag that may state
the parity as well. Coordinates are numbers of 32 bytes and have to be reduced.
-/

namespace UtxoScript.Secp256k1

/-- A coordinate, the most significant byte first. -/
def coordinate? (bytes : Bytes) : Option Field :=
  let n := Bytes.toNatBE bytes
  if h : n < fieldPrime then some ⟨n, h⟩ else none

/-- The point with a given first coordinate whose second coordinate is odd or even as asked. -/
def pointOfAbscissa? (x : Field) (odd : Bool) : Option Point :=
  let y := (curveSquare x).root
  if y * y = curveSquare x then
    some (Point.affine x (if (y.val % 2 == 1) = odd then y else Field.ofNat 0 - y))
  else none

/-- The point with two given coordinates, if it is on the curve. -/
def pointOfCoordinates? (x y : Field) : Option Point :=
  if y * y = curveSquare x then some (Point.affine x y) else none

/-- The point of a public key. -/
def publicPoint? : Bytes → Option Point
  | [] => none
  | tag :: bytes =>
    if bytes.length = 32 then
      if tag = 0x02 ∨ tag = 0x03 then
        (coordinate? bytes).bind (fun x => pointOfAbscissa? x (tag == 0x03))
      else none
    else if bytes.length = 64 then do
      let x ← coordinate? (bytes.take 32)
      let y ← coordinate? (bytes.drop 32)
      let odd := y.val % 2 == 1
      if tag = 0x04 ∨ (tag = 0x06 ∧ !odd) ∨ (tag = 0x07 ∧ odd) then pointOfCoordinates? x y
      else none
    else none

end UtxoScript.Secp256k1
