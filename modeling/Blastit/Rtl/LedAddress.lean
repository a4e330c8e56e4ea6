import Blastit.Rtl.LedMatrix

/-!
Which light a single `led_matrix` drives, on every clock of every run from reset: the one at the
scanned position or none, and never one that is not enabled. The reset may come back at any
clock.
-/

namespace Blastit.Rtl.LedMatrix

open Blastit.Lib.Clocked

variable {p : Params}

/-- Column, row and address agree, and the lines are those of the position while its enable bit
is set. -/
structure Addressed (s : State p) (i : In p) : Prop where
  scan : Scan (visible s i)
  lines : (nEn s i = 0 ∧ mEn s i = 0) ∨
    (nEn s i = BitVec.twoPow p.ledsN (visible s i).nIReg.toNat ∧
      mEn s i = BitVec.twoPow p.ledsM (visible s i).mIReg.toNat)
  enabled : nEn s i ≠ 0 ∨ mEn s i ≠ 0 →
    s.enReg ((visible s i).mIReg.toNat * p.ledsN + (visible s i).nIReg.toNat) = true

variable {s : State p} {i : In p}

lemma eq_twoPow_of_bits {w k : ℕ} {v : BitVec w} (hk : k < w)
    (h : ∀ n < w, v.getLsbD n = true ↔ n = k) : v = BitVec.twoPow w k := by
  apply BitVec.eq_of_getLsbD_eq
  intro n hn
  rw [Bool.eq_iff_iff, h n hn, BitVec.getLsbD_twoPow]
  simp only [Bool.and_eq_true, decide_eq_true_eq, hk, true_and]
  exact eq_comm

lemma eq_zero_of_bits {w : ℕ} {v : BitVec w} (h : ∀ n < w, ¬ v.getLsbD n = true) : v = 0 := by
  apply BitVec.eq_of_getLsbD_eq
  intro n hn
  rw [Bool.eq_false_iff.mpr (h n hn)]
  simp

lemma enables_of_lit (h : Scan (visible s i)) (hl : lit s i = true) :
    nEn s i = BitVec.twoPow p.ledsN (visible s i).nIReg.toNat ∧
      mEn s i = BitVec.twoPow p.ledsM (visible s i).mIReg.toNat := by
  constructor
  · exact eq_twoPow_of_bits h.n_lt fun n hn => (nEn_getLsbD s i hn).trans (and_iff_right hl)
  · exact eq_twoPow_of_bits h.m_lt fun m hm => (mEn_getLsbD s i hm).trans (and_iff_right hl)

lemma enables_of_dark (hl : ¬ lit s i = true) : nEn s i = 0 ∧ mEn s i = 0 := by
  constructor
  · exact eq_zero_of_bits fun n hn hbit => hl ((nEn_getLsbD s i hn).mp hbit).1
  · exact eq_zero_of_bits fun m hm hbit => hl ((mEn_getLsbD s i hm).mp hbit).1

lemma Scan.addressed (h : Scan s) (hp : p.Room) (i : In p) : Addressed s i where
  scan := h.visible hp i
  lines := by
    by_cases hl : lit s i = true
    · exact .inr (enables_of_lit (h.visible hp i) hl)
    · exact .inl (enables_of_dark hl)
  enabled hne := by
    refine h.enabled_of_lit hp (i := i) (by_contra fun hl => ?_)
    obtain ⟨hn, hm⟩ := enables_of_dark hl
    exact hne.elim (absurd hn) (absurd hm)

/-- **Every clock from reset is addressed**, whatever the brightness, the LED period and the
writes. -/
theorem addressed_run (hp : p.Room) (s : State p) (inp : ℕ → In p) (t : ℕ) :
    Addressed (exec next (reset s) inp t) (inp t) :=
  Scan.addressed (exec_inv_all (scan_reset hp s) (fun _ i h => h.next hp i) t) hp _

/-- A matrix of two by one, everything enabled, on the third clock. -/
theorem addressed_two_lights :
    let p : Params := ⟨2, 1, 2, 1, 2, 1⟩
    let s : State p := ⟨fun _ => true, 0, 0, 0, ⟨0⟩, ⟨0, false⟩⟩
    let inp : ℕ → In p := fun _ => ⟨false, 3, 0, false, false, 0⟩
    Addressed (exec next (reset s) inp 2) (inp 2) ∧ nEn (exec next (reset s) inp 2) (inp 2) = 2 := by
  intro p s inp
  have hp : p.Room := ⟨by decide, by decide, by decide, by decide⟩
  exact ⟨addressed_run hp s inp 2, by decide⟩

end Blastit.Rtl.LedMatrix
