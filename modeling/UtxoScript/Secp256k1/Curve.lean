import UtxoScript.Numeral

/-!
# The curve

The curve `y² = x³ + 7` over the field of `fieldPrime` elements. A point is held as `(x, y, z)`,
which stands for `(x / z², y / z³)`, so that adding points needs no division; the point at infinity
has `z = 0`. The points form a group of `order` elements, generated by `generator`.
-/

namespace UtxoScript.Secp256k1

/-- The number of elements of the field. -/
def fieldPrime : Nat := 0xfffffffffffffffffffffffffffffffffffffffffffffffffffffffefffffc2f

/-- The number of points. -/
def order : Nat := 0xfffffffffffffffffffffffffffffffebaaedce6af48a03bbfd25e8cd0364141

/-- An element of the field. -/
abbrev Field := Fin fieldPrime

/-- The element that a number is congruent to. -/
def Field.ofNat (n : Nat) : Field := ⟨n % fieldPrime, Nat.mod_lt n (Nat.succ_pos (fieldPrime - 1))⟩

/-- A power of an element. -/
def Field.power (a : Field) (n : Nat) : Field :=
  Numeral.multiple (fun b => b * b) (· * ·) (Field.ofNat 1) a n

/-- The inverse of an element other than zero, its power by two less than the number of elements. -/
def Field.inverse (a : Field) : Field := a.power (fieldPrime - 2)

/-- The square root of an element that is a square. -/
def Field.root (a : Field) : Field := a.power ((fieldPrime + 1) / 4)

/-- The square of the second coordinate of a point, from the first. -/
def curveSquare (x : Field) : Field := x * x * x + Field.ofNat 7

/-- A point, in three coordinates. -/
structure Point where
  /-- The first coordinate times the square of `z`. -/
  x : Field
  /-- The second coordinate times the cube of `z`. -/
  y : Field
  /-- The common denominator, zero at infinity. -/
  z : Field

namespace Point

/-- The point at infinity, the zero of the group. -/
def infinity : Point := ⟨Field.ofNat 1, Field.ofNat 1, Field.ofNat 0⟩

/-- Whether a point is the point at infinity. -/
def isInfinity (P : Point) : Bool := P.z == Field.ofNat 0

/-- The point with these two coordinates. -/
def affine (x y : Field) : Point := ⟨x, y, Field.ofNat 1⟩

/-- The first coordinate of a point that is not at infinity. -/
def abscissa (P : Point) : Field :=
  let inverse := P.z.inverse
  P.x * inverse * inverse

/-- A point added to itself. -/
def double (P : Point) : Point :=
  let y₂ := P.y * P.y
  let s := Field.ofNat 4 * P.x * y₂
  let m := Field.ofNat 3 * P.x * P.x
  let x := m * m - s - s
  ⟨x, m * (s - x) - Field.ofNat 8 * y₂ * y₂, Field.ofNat 2 * P.y * P.z⟩

/-- The sum of two points. -/
def add (P Q : Point) : Point :=
  if P.isInfinity then Q
  else if Q.isInfinity then P
  else
    let zP := P.z * P.z
    let zQ := Q.z * Q.z
    let xP := P.x * zQ
    let yP := P.y * Q.z * zQ
    let h := Q.x * zP - xP
    let r := Q.y * P.z * zP - yP
    if h == Field.ofNat 0 then
      -- The same first coordinate: the points are equal or opposite.
      if r == Field.ofNat 0 then P.double else infinity
    else
      let h₂ := h * h
      let h₃ := h₂ * h
      let v := xP * h₂
      let x := r * r - h₃ - v - v
      ⟨x, r * (v - x) - yP * h₃, h * P.z * Q.z⟩

/-- The `n`-fold sum of a point. -/
def multiple (P : Point) (n : Nat) : Point := Numeral.multiple double add infinity P n

end Point

/-- The point whose multiples are all the points. -/
def generator : Point :=
  Point.affine
    (Field.ofNat 0x79be667ef9dcbbac55a06295ce870b07029bfcdb2dce28d959f2815b16f81798)
    (Field.ofNat 0x483ada7726a3c4655da4fbfc0e1108a8fd17b448a68554199c47d08ffb10d4b8)

end UtxoScript.Secp256k1
