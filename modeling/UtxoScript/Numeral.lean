/-!
# Positional numerals

The digits of a number in a base, most significant first and without a leading zero, so that zero
has no digits at all. `value_digits` says that the digits spell the number, and `digits_lt` that
each of them is below the base. Where leading zeros count, `rebase` changes the base and keeps them.
-/

namespace UtxoScript.Numeral

/-- The number that digits spell in `base`, most significant first. -/
def value (base : Nat) (digits : List Nat) : Nat :=
  digits.foldl (fun n digit => n * base + digit) 0

/-- The digits of `n` in `base` followed by `low`. There are none in a base below two. -/
def digitsBefore (base n : Nat) (low : List Nat) : List Nat :=
  if _h : 2 ≤ base ∧ 0 < n then digitsBefore base (n / base) (n % base :: low) else low
termination_by n
decreasing_by exact Nat.div_lt_self (by omega) (by omega)

/-- The digits of `n` in `base`, most significant first. -/
def digits (base n : Nat) : List Nat := digitsBefore base n []

/-- The digits already found stand at the end. -/
theorem digitsBefore_eq (base n : Nat) (low : List Nat) :
    digitsBefore base n low = digits base n ++ low := by
  induction n using Nat.strongRecOn generalizing low with
  | ind n ih =>
    unfold digits digitsBefore
    split
    · next h =>
      have less : n / base < n := Nat.div_lt_self (by omega) (by omega)
      rw [ih _ less, ih _ less [n % base]]
      simp
    · simp

@[simp] theorem digits_zero (base : Nat) : digits base 0 = [] := by
  simp [digits, digitsBefore]

/-- The last digit is the remainder, and the digits of the quotient stand before it. -/
theorem digits_of_pos {base n : Nat} (two_le : 2 ≤ base) (pos : 0 < n) :
    digits base n = digits base (n / base) ++ [n % base] := by
  rw [digits, digitsBefore, dif_pos ⟨two_le, pos⟩, digitsBefore_eq]

theorem value_append_singleton (base : Nat) (high : List Nat) (digit : Nat) :
    value base (high ++ [digit]) = value base high * base + digit := by
  simp [value, List.foldl_append]

/-- The digits of a number spell it. -/
theorem value_digits {base : Nat} (two_le : 2 ≤ base) (n : Nat) :
    value base (digits base n) = n := by
  induction n using Nat.strongRecOn with
  | ind n ih =>
    rcases Nat.eq_zero_or_pos n with rfl | pos
    · simp [value]
    · rw [digits_of_pos two_le pos, value_append_singleton, ih _ (Nat.div_lt_self pos two_le)]
      exact Nat.div_add_mod' n base

/-- Every digit is below the base. -/
theorem digits_lt {base : Nat} (two_le : 2 ≤ base) (n : Nat) : ∀ d ∈ digits base n, d < base := by
  induction n using Nat.strongRecOn with
  | ind n ih =>
    rcases Nat.eq_zero_or_pos n with rfl | pos
    · simp
    · rw [digits_of_pos two_le pos]
      intro d hd
      rcases List.mem_append.1 hd with hd | hd
      · exact ih _ (Nat.div_lt_self pos two_le) d hd
      · rw [List.mem_singleton.1 hd]
        exact Nat.mod_lt _ (by omega)

/-- The `n`-fold sum of `x`, by doubling and adding: the bits of `n` are taken from the top, each
doubles what has been summed, and a bit that is set adds `x`. -/
def multiple {α : Type} (double : α → α) (add : α → α → α) (zero x : α) (n : Nat) : α :=
  (digits 2 n).foldl
    (fun sum bit =>
      let twice := double sum
      if bit = 1 then add twice x else twice)
    zero

/-- Digits in one base as digits in another, with as many leading zeros. -/
def rebase (source target : Nat) (ds : List Nat) : List Nat :=
  ds.takeWhile (· == 0) ++ digits target (value source ds)

end UtxoScript.Numeral
