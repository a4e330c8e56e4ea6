import Mathlib.Algebra.BigOperators.Group.Finset.Basic
import Mathlib.Algebra.Order.Ring.Nat
import Mathlib.Data.Nat.Init
import Mathlib.Tactic.Common

/-!
Decimal digits, and how they change when a bit is shifted into a number from below.

The carry out of a digit is settled by the digit alone: two times it and a carry in is ten
or more exactly from five on. So the digits of `2 * x + b` can be computed all at once.
-/

namespace Blastit.Lib.Decimal

variable {x y b i n : ℕ}

def digit (x i : ℕ) : ℕ := x / 10 ^ i % 10

lemma digit_lt (x i : ℕ) : digit x i < 10 := Nat.mod_lt _ (by decide)

@[simp] lemma digit_zero_left (i : ℕ) : digit 0 i = 0 := by simp [digit]

def carry (x b : ℕ) : ℕ → ℕ
  | 0 => b
  | i + 1 => if 5 ≤ digit x i then 1 else 0

lemma carry_le (hb : b ≤ 1) (i : ℕ) : carry x b i ≤ 1 := by
  cases i with
  | zero => exact hb
  | succ i =>
    rw [carry]
    split
    · exact Nat.le_refl 1
    · exact Nat.zero_le 1

/-- The digits from `i` on. -/
lemma double_div (hb : b ≤ 1) (i : ℕ) : (2 * x + b) / 10 ^ i = 2 * (x / 10 ^ i) + carry x b i := by
  induction i with
  | zero => simp [carry]
  | succ i ih =>
    have hc : carry x b i ≤ 1 := carry_le hb i
    rw [Nat.pow_succ, ← Nat.div_div_eq_div_mul, ih, ← Nat.div_div_eq_div_mul, carry, digit]
    split <;> omega

/-- **Shifting a bit in**: a digit is doubled, without what it carries out, and takes the carry
of the digit below. -/
theorem digit_double (hb : b ≤ 1) (i : ℕ) :
    digit (2 * x + b) i = 2 * digit x i % 10 + carry x b i := by
  have hc : carry x b i ≤ 1 := carry_le hb i
  unfold digit at *
  rw [double_div hb]
  omega

lemma mod_eq_of_digits (h : ∀ i < n, digit x i = digit y i) : x % 10 ^ n = y % 10 ^ n := by
  induction n with
  | zero => simp [Nat.mod_one]
  | succ n ih =>
    have hn : x / 10 ^ n % 10 = y / 10 ^ n % 10 := h n (Nat.lt_succ_self n)
    rw [Nat.mod_pow_succ, Nat.mod_pow_succ, ih fun i hi => h i (by omega), hn]

lemma digit_mod (hi : i < n) : digit (x % 10 ^ n) i = digit x i := by
  obtain ⟨k, rfl⟩ := Nat.exists_eq_add_of_lt hi
  unfold digit
  rw [show i + k + 1 = i + (k + 1) by omega, Nat.pow_add, Nat.mod_mul_right_div_self,
    Nat.pow_succ', Nat.mod_mul_right_mod]

/-- **The digits tell a number.** -/
theorem digits_eq_iff (hy : y < 10 ^ n) : (∀ i < n, digit x i = digit y i) ↔ x % 10 ^ n = y := by
  constructor
  · intro h
    rw [mod_eq_of_digits h, Nat.mod_eq_of_lt hy]
  · rintro rfl i hi
    exact (digit_mod hi).symm

lemma sum_digit (x n : ℕ) : ∑ i ∈ Finset.range n, digit x i * 10 ^ i = x % 10 ^ n := by
  induction n with
  | zero => simp [Nat.mod_one]
  | succ n ih => rw [Finset.sum_range_succ, ih, Nat.mod_pow_succ, digit, Nat.mul_comm (10 ^ n)]

end Blastit.Lib.Decimal
