import Mathlib.Data.BitVec

/-!
Words as sets of flags: testing, setting and clearing one bit by a mask.
-/

namespace Blastit.Lib.Mask

variable {w i j : ℕ}

/-- The bit at `i`, read the way C does. -/
def Has (v : BitVec w) (i : ℕ) : Prop := v &&& BitVec.twoPow w i ≠ 0

instance (v : BitVec w) (i : ℕ) : Decidable (Has v i) := inferInstanceAs (Decidable (_ ≠ _))

lemma twoPow_ne_zero (h : i < w) : BitVec.twoPow w i ≠ 0 := by
  intro h0
  have hbit := congrArg (fun v => v.getLsbD i) h0
  simp [h] at hbit

lemma has_iff (v : BitVec w) (h : i < w) : Has v i ↔ v.getLsbD i = true := by
  unfold Has
  rw [BitVec.and_twoPow]
  cases v.getLsbD i with
  | false => simp
  | true => simpa using twoPow_ne_zero h

lemma test_eq (v : BitVec w) (h : i < w) : (!(v &&& BitVec.twoPow w i == 0)) = v.getLsbD i := by
  rw [Bool.eq_iff_iff, ← has_iff v h, Bool.not_eq_true', beq_eq_false_iff_ne, Has]

lemma not_has_zero : ¬ Has (0 : BitVec w) i := by
  simp [Has]

lemma has_or (v : BitVec w) (hi : i < w) (hj : j < w) :
    Has (v ||| BitVec.twoPow w j) i ↔ i = j ∨ Has v i := by
  rw [has_iff _ hi, has_iff _ hi, BitVec.getLsbD_or, BitVec.getLsbD_twoPow]
  simp only [Bool.or_eq_true, Bool.and_eq_true, decide_eq_true_eq, hj, true_and]
  rw [or_comm, eq_comm]

lemma and_not_of_not_has {v : BitVec w} (h : ¬ Has v i) : v &&& ~~~ BitVec.twoPow w i = v := by
  ext k hk
  simp only [BitVec.getElem_and, BitVec.getElem_not, BitVec.getElem_twoPow]
  by_cases hik : k = i
  · subst hik
    rw [has_iff v hk] at h
    simp [BitVec.getLsbD_eq_getElem hk] at h
    simp [h]
  · simp [hik]

end Blastit.Lib.Mask
