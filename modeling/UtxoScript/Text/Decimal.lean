/-!
# Decimal text

Numbers as sequences of decimal digits, without a sign and with any number of leading zeros. A
reader that knows a bound stops at the digit that passes it, and `below?_eq` says that it finds the
numbers below the bound all the same.
-/

namespace UtxoScript.Text.Decimal

/-- The number that digits spell when they follow the digits of `n`. -/
def valueAfter (n : Nat) (digits : List Char) : Nat :=
  digits.foldl (fun n digit => n * 10 + (digit.toNat - 0x30)) n

/-- The number that digits spell; there has to be at least one. -/
def read? (digits : List Char) : Option Nat :=
  if digits ≠ [] ∧ digits.all Char.isDigit then some (valueAfter 0 digits) else none

/-- The number that digits spell when they follow the digits of `n`, if no digit takes it to
`bound`. -/
def valueBelow? (bound n : Nat) (digits : List Char) : Option Nat :=
  digits.foldlM
    (fun n digit =>
      let m := n * 10 + (digit.toNat - 0x30)
      if m < bound then some m else none)
    n

/-- The number below `bound` that digits spell; there has to be at least one. -/
def below? (bound : Nat) (digits : List Char) : Option Nat :=
  if digits ≠ [] ∧ digits.all Char.isDigit then valueBelow? bound 0 digits else none

/-- More digits make no smaller number. -/
theorem le_valueAfter (n : Nat) (digits : List Char) : n ≤ valueAfter n digits := by
  induction digits generalizing n with
  | nil => exact Nat.le_refl n
  | cons digit rest ih =>
    have step : n ≤ n * 10 + (digit.toNat - 0x30) := by omega
    exact Nat.le_trans step (ih _)

/-- Stopping at the bound loses no number below it. -/
theorem valueBelow?_eq {bound n : Nat} (digits : List Char) (start : n < bound) :
    valueBelow? bound n digits = (some (valueAfter n digits)).filter (· < bound) := by
  induction digits generalizing n with
  | nil => simp [valueBelow?, valueAfter, Option.filter, start]
  | cons digit rest ih =>
    by_cases h : n * 10 + (digit.toNat - 0x30) < bound
    · have := ih h
      simp_all [valueBelow?, valueAfter]
    · have := le_valueAfter (n * 10 + (digit.toNat - 0x30)) rest
      have past : ¬ valueAfter n (digit :: rest) < bound := by
        simp only [valueAfter, List.foldl_cons] at this ⊢
        omega
      simp [valueBelow?, h, past, Option.filter]

/-- Reading with a bound finds what reading finds, if it is below the bound. -/
theorem below?_eq (bound : Nat) (digits : List Char) :
    below? bound digits = (read? digits).filter (· < bound) := by
  unfold below? read?
  split
  · next h =>
    rcases Nat.eq_zero_or_pos bound with rfl | pos
    · obtain ⟨digit, rest, rfl⟩ := List.exists_cons_of_ne_nil h.1
      simp [valueBelow?, Option.filter]
    · exact valueBelow?_eq digits pos
  · rfl

end UtxoScript.Text.Decimal
