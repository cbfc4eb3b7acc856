import IncrementalBuild.Text.Decimal
import Mathlib.Data.Nat.Basic
import Mathlib.Tactic.IntervalCases
import Mathlib.Tactic.Ring

/-!
# Reading numerals

What `Decimal` writes stands for the number it was written for.  A numeral with a fixed number of
places has the value of the number if it has enough of them, and a numeral without superfluous
zeros is the usual one, with the digits of the number to the base ten.
-/

namespace IncrementalBuild.Decimal

/-! ### Digits -/

theorem lastDigit_eq_digitChar (n : Nat) :
  lastDigit n = (n % 10).digitChar
  := by
  have hdigit : n % 10 < 10 := Nat.mod_lt n (by decide)
  unfold lastDigit
  generalize n % 10 = digit at hdigit
  interval_cases digit <;> rfl

theorem toNat_lastDigit (n : Nat) :
  (lastDigit n).toNat = '0'.toNat + n % 10
  := by
  rw [lastDigit_eq_digitChar, Nat.toNat_digitChar_of_lt_ten (Nat.mod_lt n (by decide))]
  rfl

theorem isDigit_lastDigit (n : Nat) :
  isDigit (lastDigit n) = true
  := by
  have hdigit : n % 10 < 10 := Nat.mod_lt n (by decide)
  rw [lastDigit_eq_digitChar]
  generalize n % 10 = digit at hdigit
  interval_cases digit <;> rfl

theorem digitValue_lastDigit (n : Nat) :
  digitValue (lastDigit n) = n % 10
  := by rw [digitValue, toNat_lastDigit, Nat.add_sub_cancel_left]

/-! ### Values -/

theorem value_concat (cs : List Char) (c : Char) :
  value (cs ++ [c]) = 10 * value cs + digitValue c
  := by
  rw [value, List.foldl_append]
  rfl

theorem value_append_zeros (cs : List Char) (count : Nat) :
  value (cs ++ List.replicate count '0') = value cs * 10 ^ count
  := by
  induction count with
  | zero => simp
  | succ count ih =>
    have hzero : digitValue '0' = 0 := by decide
    rw [List.replicate_succ', ← List.append_assoc, value_concat, ih, hzero]
    ring

/-! ### Numerals with a fixed number of places -/

theorem isDigit_of_mem_fixed {places n : Nat} {c : Char} (h : c ∈ fixed places n) :
  isDigit c = true
  := by
  induction places generalizing n with
  | zero => cases h
  | succ places ih =>
    rw [fixed, List.mem_append, List.mem_singleton] at h
    rcases h with h | rfl
    · exact ih h
    · exact isDigit_lastDigit n

/-- As many digits as there are places are kept. -/
theorem value_fixed (places n : Nat) :
  value (fixed places n) = n % 10 ^ places
  := by
  induction places generalizing n with
  | zero => rw [Nat.pow_zero, Nat.mod_one]; rfl
  | succ places ih =>
    rw [fixed, value_concat, ih, digitValue_lastDigit, Nat.pow_succ', Nat.mod_mul]
    omega

theorem value_fixed_of_lt {places n : Nat} (h : n < 10 ^ places) :
  value (fixed places n) = n
  := by rw [value_fixed, Nat.mod_eq_of_lt h]

/-! ### Numerals without superfluous zeros -/

theorem isDigit_of_mem_digits {n : Nat} {c : Char} (h : c ∈ digits n) :
  isDigit c = true
  := by
  fun_induction digits n with
  | case1 n hlt =>
    rw [List.mem_singleton.1 h]
    exact isDigit_lastDigit n
  | case2 n hlt ih =>
    rcases List.mem_append.1 h with h | h
    · exact ih h
    · rw [List.mem_singleton.1 h]
      exact isDigit_lastDigit n

theorem value_digits (n : Nat) :
  value (digits n) = n
  := by
  fun_induction digits n with
  | case1 n hlt =>
    rw [← List.nil_append [lastDigit n], value_concat, digitValue_lastDigit, Nat.mod_eq_of_lt hlt]
    exact Nat.zero_add n
  | case2 n hlt ih =>
    rw [value_concat, ih, digitValue_lastDigit]
    omega

theorem toNat?_digits (n : Nat) :
  toNat? (digits n) = some n
  := by
  have hne : digits n ≠ [] := by
    unfold digits
    split <;> simp
  have hall : (digits n).all isDigit = true := List.all_eq_true.2 fun _ => isDigit_of_mem_digits
  rw [toNat?, value_digits, hall]
  simp [hne]

theorem toInt?_digits (n : Nat) :
  toInt? (digits n) = some (n : Int)
  := by
  -- A digit is no sign.
  have hsign : ∀ c ∈ digits n, c ≠ '-' ∧ c ≠ '+' := by
    intro c hc
    have hdigit := isDigit_of_mem_digits hc
    constructor <;> rintro rfl <;> cases hdigit
  unfold toInt?
  split
  · next heq => exact absurd rfl (hsign '-' (by rw [heq]; exact List.mem_cons_self)).1
  · next heq => exact absurd rfl (hsign '+' (by rw [heq]; exact List.mem_cons_self)).2
  · rw [toNat?_digits]
    rfl

/-- The numeral of an integer is read back as the integer. -/
theorem toInt?_ofInt (n : Int) :
  toInt? (ofInt n).toList = some n
  := by
  cases n with
  | ofNat n =>
    rw [ofInt, ofNat, String.toList_ofList, toInt?_digits]
    rfl
  | negSucc n =>
    have hsigned : ("-" ++ ofNat (n + 1)).toList = '-' :: digits (n + 1) := by simp [ofNat]
    rw [ofInt, hsigned, toInt?, toNat?_digits]
    rfl

theorem digits_eq_toDigits (n : Nat) :
  digits n = Nat.toDigits 10 n
  := by
  fun_induction digits n with
  | case1 n hlt =>
    rw [Nat.toDigits_of_lt_base hlt, lastDigit_eq_digitChar, Nat.mod_eq_of_lt hlt]
  | case2 n hlt ih =>
    rw [ih, lastDigit_eq_digitChar, Nat.toDigits_eq_if (n := n) (by decide), if_neg hlt]

/-- The numeral of an integer is the usual one. -/
theorem ofInt_eq_toString (n : Int) :
  ofInt n = toString n
  := by
  cases n with
  | ofNat n =>
    rw [ofInt, ofNat, digits_eq_toDigits]
    rfl
  | negSucc n =>
    rw [ofInt, ofNat, digits_eq_toDigits]
    rfl

end IncrementalBuild.Decimal
