import Mathlib.Data.List.Induction
import UtxoScript.Text.Decimal

/-!
# Numbers in texts

A number is known from its digits, and from a text that goes on behind them if what follows does not
begin with a digit (`toString_append_inj`). The digits that spell a number are its shortest ones
behind any number of zeros, and there are no others (`read?_eq_some_iff`).
-/

namespace UtxoScript.Text

/-- The text of a number consists of its digits. -/
theorem toList_toString (n : Nat) : (toString n).toList = Nat.toDigits 10 n := by
  rw [Nat.toString_eq_repr, Nat.toList_repr]

/-- The text of a number consists of digits. -/
theorem isDigit_of_mem_toString {n : Nat} : ∀ d ∈ (toString n).toList, d.isDigit = true := by
  intro d hd
  rw [toList_toString] at hd
  exact Nat.isDigit_of_mem_toDigits (by decide) (by decide) hd

/-- The text of a number is not empty. -/
theorem toList_toString_ne_nil (n : Nat) : (toString n).toList ≠ [] := by
  rw [toList_toString]
  exact Nat.toDigits_ne_nil

/-- Numbers differ where their texts do. -/
theorem toString_inj {m n : Nat} : toString m = toString n ↔ m = n := by
  constructor
  · intro h
    have hvalue := congrArg (fun text => Nat.ofDigitChars 10 text.toList 0) h
    simpa only [toList_toString, Nat.ofDigitChars_ten_toDigits] using hvalue
  · rintro rfl
    rfl

/-- The digits of a number end where something else begins. -/
theorem takeWhile_isDigit_toString_append {c : Char} (hc : c.isDigit = false) (n : Nat)
    (rest : List Char) :
    ((toString n).toList ++ c :: rest).takeWhile Char.isDigit = (toString n).toList := by
  rw [List.takeWhile_append_of_pos isDigit_of_mem_toString,
    List.takeWhile_cons_of_neg (by simp [hc]), List.append_nil]

/-- A number is known from a text in which a separator follows that does not begin with a digit. -/
theorem toString_append_inj {m n : Nat} {separator rest rest' : String}
    (hseparator : separator.toList.head?.any (fun c => !c.isDigit) = true)
    (h : toString m ++ (separator ++ rest) = toString n ++ (separator ++ rest')) :
    m = n ∧ rest = rest' := by
  cases hlist : separator.toList with
  | nil => simp [hlist] at hseparator
  | cons c cs =>
    have hc : c.isDigit = false := by simpa [hlist] using hseparator
    -- The digits in front of the separator are those of the number.
    have hnumber : m = n := by
      have htext := congrArg (fun text => text.toList.takeWhile Char.isDigit) h
      simp only [String.toList_append, hlist, List.cons_append,
        takeWhile_isDigit_toString_append hc] at htext
      exact toString_inj.1 (String.toList_inj.1 htext)
    subst hnumber
    rw [String.append_right_inj, String.append_right_inj] at h
    exact ⟨rfl, h⟩

/-! ## Reading digits -/

namespace Decimal

/-- A digit is the character of its value, which is below ten. -/
theorem exists_digitChar_of_isDigit {c : Char} (h : c.isDigit = true) :
    ∃ d < 10, c = Nat.digitChar d ∧ c.toNat - 0x30 = d := by
  have hbounds : 0x30 ≤ c.toNat ∧ c.toNat ≤ 0x39 := by
    simpa [Char.isDigit, UInt32.le_iff_toNat_le] using h
  have hall : ∀ k ≤ 9, Char.ofNat (0x30 + k) = Nat.digitChar k := by decide
  obtain ⟨k, hk⟩ := Nat.exists_eq_add_of_le hbounds.1
  refine ⟨k, by omega, ?_, by omega⟩
  rw [← hall k (by omega), ← hk, Char.ofNat_toNat]

/-- The last digit counts once, and what those before it spell counts ten times. -/
theorem valueAfter_concat (n : Nat) (digits : List Char) (digit : Char) :
    valueAfter n (digits ++ [digit]) = valueAfter n digits * 10 + (digit.toNat - 0x30) := by
  unfold valueAfter
  rw [List.foldl_append]
  rfl

/-- The value of digits is the one that the standard library gives them. -/
theorem valueAfter_eq_ofDigitChars (n : Nat) (digits : List Char) :
    valueAfter n digits = Nat.ofDigitChars 10 digits n := by
  unfold valueAfter
  rw [Nat.ofDigitChars_eq_foldl]
  simp only [Nat.mul_comm]
  rfl

/-- A number below ten is one digit. -/
theorem toList_toString_of_lt {d : Nat} (hd : d < 10) :
    (toString d).toList = [Nat.digitChar d] := by
  rw [toList_toString, Nat.toDigits_of_lt_base hd]

/-- A further digit is written behind a number that is not zero. -/
theorem toList_toString_concat {m d : Nat} (hm : 0 < m) (hd : d < 10) :
    (toString (m * 10 + d)).toList = (toString m).toList ++ [Nat.digitChar d] := by
  rw [toList_toString, toList_toString, Nat.mul_comm,
    ← Nat.toDigits_append_toDigits (by decide) hm hd, Nat.toDigits_of_lt_base hd]

/-- Digits are zeros and then the shortest digits of what they spell. -/
theorem exists_zeros_append {digits : List Char} (hne : digits ≠ [])
    (hdigits : digits.all Char.isDigit = true) :
    ∃ zeros, digits =
      List.replicate zeros '0' ++ (toString (valueAfter 0 digits)).toList := by
  -- A further digit goes behind what stands in front, unless only zeros stand there.
  induction digits using List.reverseRecOn with
  | nil => contradiction
  | append_singleton front digit ih =>
    rw [List.all_append, Bool.and_eq_true] at hdigits
    obtain ⟨d, hd, rfl, hvalue⟩ := exists_digitChar_of_isDigit (by simpa using hdigits.2)
    rw [valueAfter_concat, hvalue]
    by_cases hfront : front = []
    · subst hfront
      refine ⟨0, ?_⟩
      rw [show valueAfter 0 [] = 0 from rfl, Nat.zero_mul, Nat.zero_add, toList_toString_of_lt hd]
      rfl
    · obtain ⟨zeros, hzeros⟩ := ih hfront hdigits.1
      rcases Nat.eq_zero_or_pos (valueAfter 0 front) with hzero | hpos
      · rw [hzero] at hzeros
        refine ⟨zeros + 1, ?_⟩
        rw [hzero, Nat.zero_mul, Nat.zero_add, toList_toString_of_lt hd, List.replicate_succ',
          hzeros]
        rfl
      · refine ⟨zeros, ?_⟩
        rw [toList_toString_concat hpos hd, ← List.append_assoc, ← hzeros]

/-- Zeros and the shortest digits of a number are digits. -/
theorem isDigit_of_mem_zeros_append {zeros n : Nat} :
    ∀ c ∈ List.replicate zeros '0' ++ (toString n).toList, c.isDigit = true := by
  intro c hc
  rcases List.mem_append.1 hc with hzero | hdigit
  · rw [List.eq_of_mem_replicate hzero]
    rfl
  · exact isDigit_of_mem_toString c hdigit

/-- The digits that spell a number are its shortest ones behind any number of zeros. -/
theorem read?_eq_some_iff {digits : List Char} {n : Nat} :
    read? digits = some n ↔
      ∃ zeros, digits = List.replicate zeros '0' ++ (toString n).toList := by
  unfold read?
  constructor
  · intro h
    split at h
    · next hcond =>
      obtain ⟨zeros, hzeros⟩ := exists_zeros_append hcond.1 hcond.2
      cases h
      exact ⟨zeros, hzeros⟩
    · contradiction
  · rintro ⟨zeros, rfl⟩
    have hdigits : (List.replicate zeros '0' ++ (toString n).toList).all Char.isDigit = true :=
      List.all_eq_true.2 isDigit_of_mem_zeros_append
    have hne : List.replicate zeros '0' ++ (toString n).toList ≠ [] :=
      List.append_ne_nil_of_right_ne_nil _ (toList_toString_ne_nil n)
    have hvalue : valueAfter 0 (List.replicate zeros '0' ++ (toString n).toList) = n := by
      rw [valueAfter_eq_ofDigitChars, Nat.ofDigitChars_append, Nat.ofDigitChars_replicate_zero,
        Nat.mul_zero, toList_toString, Nat.ofDigitChars_ten_toDigits]
    rw [if_pos ⟨hne, hdigits⟩, hvalue]

/-- The text of a number spells the number. -/
theorem read?_toString (n : Nat) : read? (toString n).toList = some n :=
  read?_eq_some_iff.2 ⟨0, rfl⟩

/-- The text of a number has no leading zero. -/
theorem eq_nil_of_toString_eq_cons {n : Nat} {rest : List Char}
    (h : (toString n).toList = '0' :: rest) : rest = [] := by
  by_contra hne
  have hdigits : rest.all Char.isDigit = true := by
    rw [List.all_eq_true]
    intro c hc
    exact isDigit_of_mem_toString c (h ▸ List.mem_cons_of_mem _ hc)
  -- What follows the zero spells the number as well, so it is not shorter than the whole.
  have hvalue : valueAfter 0 rest = n := by
    have hread := read?_toString n
    rw [h, read?, if_pos ⟨List.cons_ne_nil _ _, by rw [List.all_cons, hdigits]; rfl⟩] at hread
    exact Option.some.inj hread
  obtain ⟨zeros, hzeros⟩ := exists_zeros_append hne hdigits
  rw [hvalue, h] at hzeros
  have hlength := congrArg List.length hzeros
  rw [List.length_append, List.length_cons] at hlength
  omega

/-- What digits spell is read under a bound if it is below the bound. -/
theorem below?_eq_some_iff {bound : Nat} {digits : List Char} {n : Nat} :
    below? bound digits = some n ↔ read? digits = some n ∧ n < bound := by
  rw [below?_eq, Option.filter_eq_some_iff, decide_eq_true_iff]

end Decimal

end UtxoScript.Text
