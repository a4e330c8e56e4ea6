import Mathlib.Data.BitVec
import Mathlib.Tactic.Common

/-!
Register arithmetic at the widths Verilog gives it.

In `x == (y - 1)` the literal is 32 bits wide, so both operands are extended to 32 bits
before the subtraction: the difference does not wrap at the width of `y`, and at `y = 0`
it is a number no shorter register reaches.
-/

namespace Blastit.Lib.Sizing

variable {a b : ℕ}

lemma setWidth_toNat (x : BitVec a) (ha : a ≤ 32) : (x.setWidth 32).toNat = x.toNat := by
  rw [BitVec.toNat_setWidth, Nat.mod_eq_of_lt]
  exact Nat.lt_of_lt_of_le x.isLt (Nat.pow_le_pow_right (by omega) ha)

/-- `x == (y - 1)` with an unsized literal: `y` is positive and `x` is one below it. -/
lemma eq_sub_one_iff (x : BitVec a) (y : BitVec b) (ha : a < 32) (hb : b < 32) :
    (x.setWidth 32 == y.setWidth 32 - 1) = true ↔ x.toNat + 1 = y.toNat := by
  have hx : x.toNat < 2 ^ 31 := Nat.lt_of_lt_of_le x.isLt (Nat.pow_le_pow_right (by omega) (by omega))
  have hy : y.toNat < 2 ^ 31 := Nat.lt_of_lt_of_le y.isLt (Nat.pow_le_pow_right (by omega) (by omega))
  rw [beq_iff_eq, ← BitVec.toNat_inj, BitVec.toNat_sub, setWidth_toNat x (by omega),
    setWidth_toNat y (by omega)]
  have h1 : (1 : BitVec 32).toNat = 1 := rfl
  rw [h1]
  omega

lemma toNat_succ {x : BitVec a} (h : x.toNat + 1 < 2 ^ a) : (x + 1).toNat = x.toNat + 1 := by
  have h1 : (1 : BitVec a).toNat = 1 := by
    show 1 % 2 ^ a = 1
    exact Nat.mod_eq_of_lt (by omega)
  rw [BitVec.toNat_add, h1, Nat.mod_eq_of_lt h]

lemma toNat_pred {x : BitVec a} (h : 1 ≤ x.toNat) : (x - 1).toNat = x.toNat - 1 := by
  have hlt := x.isLt
  have h1 : (1 : BitVec a).toNat = 1 := by
    show 1 % 2 ^ a = 1
    exact Nat.mod_eq_of_lt (by omega)
  rw [BitVec.toNat_sub, h1, show 2 ^ a - 1 + x.toNat = x.toNat - 1 + 2 ^ a by omega,
    Nat.add_mod_right, Nat.mod_eq_of_lt (by omega)]

lemma toNat_wrap {x : BitVec a} (h : 2 ^ a ≤ x.toNat + 1) : (x + 1).toNat = 0 := by
  have hx : x.toNat + 1 = 2 ^ a := by
    have := x.isLt
    omega
  rcases Nat.eq_zero_or_pos a with rfl | ha
  · exact Nat.lt_one_iff.mp (x + 1).isLt
  · have h1 : (1 : BitVec a).toNat = 1 := by
      show 1 % 2 ^ a = 1
      exact Nat.mod_eq_of_lt (Nat.one_lt_two_pow (by omega))
    rw [BitVec.toNat_add, h1, hx, Nat.mod_self]

end Blastit.Lib.Sizing
