import Mathlib.Data.List.TakeWhile
import Mathlib.Data.Nat.Digits.Lemmas
import UtxoScript.Numeral

/-!
# Changing the base and changing it back

Digits without a leading zero and the numbers that they spell determine each other, which is known
of the digits of a number least significant first. `rebase` keeps the leading zeros apart, so it can
be undone whatever the digits are: this is the main statement, `rebase_rebase`.
-/

namespace UtxoScript.Numeral

/-! ## Digits in reverse -/

/-- The value of digits as that of the digits least significant first. -/
theorem value_eq_ofDigits (base : Nat) (ds : List Nat) :
    value base ds = Nat.ofDigits base ds.reverse := by
  unfold value
  rw [Nat.ofDigits_eq_foldr, List.foldr_reverse]
  simp only [Nat.cast_id, Nat.add_comm, Nat.mul_comm]

/-- The digits of a number as those least significant first. -/
theorem digits_eq_reverse {base : Nat} (two_le : 2 ≤ base) (n : Nat) :
    digits base n = (Nat.digits base n).reverse := by
  induction n using Nat.strongRecOn with
  | ind n ih =>
    rcases Nat.eq_zero_or_pos n with rfl | pos
    · rw [digits_zero, Nat.digits_zero, List.reverse_nil]
    · rw [digits_of_pos two_le pos, Nat.digits_def' two_le pos, List.reverse_cons,
        ih _ (Nat.div_lt_self pos two_le)]

/-! ## Leading zeros -/

/-- The first of the digits is not zero, if there is one. -/
def NoLeadingZero (ds : List Nat) : Prop := ∀ d ∈ ds.head?, d ≠ 0

/-- The digits of a number have no leading zero. -/
theorem noLeadingZero_digits {base : Nat} (two_le : 2 ≤ base) (n : Nat) :
    NoLeadingZero (digits base n) := by
  intro d hd
  rw [digits_eq_reverse two_le, List.head?_reverse] at hd
  rcases Nat.eq_zero_or_pos n with rfl | pos
  · rw [Nat.digits_zero] at hd
    contradiction
  · have hlast := Nat.getLast_digit_ne_zero base (Nat.ne_of_gt pos)
    rw [List.getLast?_eq_some_getLast (Nat.digits_ne_nil_iff_ne_zero.2 (Nat.ne_of_gt pos))] at hd
    rwa [← Option.some.inj hd]

/-- Digits without a leading zero are those of the number that they spell. -/
theorem digits_value {base : Nat} (two_le : 2 ≤ base) {ds : List Nat} (hlt : ∀ d ∈ ds, d < base)
    (hlead : NoLeadingZero ds) : digits base (value base ds) = ds := by
  -- The last digit in reverse is the first one.
  have hlast (hne : ds.reverse ≠ []) : ds.reverse.getLast hne ≠ 0 := by
    apply hlead
    rw [← List.getLast?_reverse]
    exact List.getLast?_eq_some_getLast hne
  rw [digits_eq_reverse two_le, value_eq_ofDigits,
    Nat.digits_ofDigits base two_le _ (fun d hd => hlt d (List.mem_reverse.1 hd)) hlast,
    List.reverse_reverse]

/-- Leading zeros add nothing to the value. -/
theorem value_zeros_append (base : Nat) {zeros : List Nat} (hzeros : ∀ d ∈ zeros, d = 0)
    (ds : List Nat) : value base (zeros ++ ds) = value base ds := by
  rw [List.eq_replicate_of_mem hzeros, value_eq_ofDigits, value_eq_ofDigits, List.reverse_append,
    List.reverse_replicate, Nat.ofDigits_append_replicate_zero]

/-- What follows the leading zeros has none. -/
theorem noLeadingZero_dropWhile (ds : List Nat) : NoLeadingZero (ds.dropWhile (· == 0)) := by
  intro d hd hzero
  have hnot := List.head?_dropWhile_not (· == 0) ds
  rw [hd, hzero] at hnot
  contradiction

/-- The leading zeros of digits without one behind zeros. -/
theorem takeWhile_zeros_append {zeros ds : List Nat} (hzeros : ∀ d ∈ zeros, d = 0)
    (hlead : NoLeadingZero ds) : (zeros ++ ds).takeWhile (· == 0) = zeros := by
  rw [List.takeWhile_append_of_pos fun d hd => beq_iff_eq.2 (hzeros d hd)]
  cases ds with
  | nil => rw [List.takeWhile_nil, List.append_nil]
  | cons d rest =>
    have hd : (d == 0) = false := beq_eq_false_iff_ne.2 (hlead d rfl)
    rw [List.takeWhile_cons, hd]
    exact List.append_nil zeros

/-! ## Changing the base -/

/-- The leading zeros of digits are zeros. -/
theorem eq_zero_of_mem_takeWhile {ds : List Nat} : ∀ d ∈ ds.takeWhile (· == 0), d = 0 := by
  intro d hd
  have hzero := List.mem_takeWhile_imp hd
  exact beq_iff_eq.1 hzero

/-- Digits in the new base are below it. -/
theorem rebase_lt {source target : Nat} (two_le : 2 ≤ target) (ds : List Nat) :
    ∀ d ∈ rebase source target ds, d < target := by
  intro d hd
  rcases List.mem_append.1 hd with hzero | hdigit
  · rw [eq_zero_of_mem_takeWhile d hzero]
    omega
  · exact digits_lt two_le _ d hdigit

/-- A change of the base is undone by the change back. -/
theorem rebase_rebase {source target : Nat} (source_le : 2 ≤ source) (target_le : 2 ≤ target)
    {ds : List Nat} (hlt : ∀ d ∈ ds, d < source) :
    rebase target source (rebase source target ds) = ds := by
  -- The leading zeros stay what they are, and what follows them is given by its value.
  have hsplit : ds.takeWhile (· == 0) ++ ds.dropWhile (· == 0) = ds :=
    List.takeWhile_append_dropWhile
  have hvalue : value source ds = value source (ds.dropWhile (· == 0)) := by
    rw [← value_zeros_append source eq_zero_of_mem_takeWhile (ds.dropWhile (· == 0)), hsplit]
  have hrest : digits source (value source ds) = ds.dropWhile (· == 0) := by
    rw [hvalue]
    refine digits_value source_le ?_ (noLeadingZero_dropWhile ds)
    intro d hd
    exact hlt d ((List.dropWhile_suffix _).subset hd)
  calc
    rebase target source (rebase source target ds)
        = ds.takeWhile (· == 0) ++ digits source (value target (rebase source target ds)) := by
          rw [rebase, rebase, takeWhile_zeros_append eq_zero_of_mem_takeWhile
            (noLeadingZero_digits target_le _)]
    _ = ds.takeWhile (· == 0) ++ digits source (value source ds) := by
          rw [rebase, value_zeros_append target eq_zero_of_mem_takeWhile, value_digits target_le]
    _ = ds := by rw [hrest, hsplit]

end UtxoScript.Numeral
