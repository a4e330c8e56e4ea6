import Blastit.Lib.Ticks
import Mathlib.Data.BitVec

/-!
`pwm.v`: a free-running counter that lets its input through while it has not passed `w`.

The counter goes through all its values in any `2 ^ N` clocks, wherever it starts.
-/

namespace Blastit.Rtl.Pwm

open Blastit.Lib.Ticks

structure State (N : ℕ) where
  counterReg : BitVec N
  deriving DecidableEq

variable {N M : ℕ}

def reset : State N := ⟨0⟩

def next (s : State N) : State N := ⟨s.counterReg + 1⟩

def passes (s : State N) (w : BitVec N) : Bool := !(decide (w < s.counterReg) || w == 0)

def out (s : State N) (w : BitVec N) (inp : BitVec M) : BitVec M := if passes s w then inp else 0

/-! ### The counter -/

variable {s : State N} {w w' : BitVec N}

lemma passes_iff : passes s w = true ↔ w ≠ 0 ∧ s.counterReg.toNat ≤ w.toNat := by
  simp [passes, BitVec.lt_def, and_comm]

lemma counterReg_iterate (s : State N) (t : ℕ) :
    (next^[t] s).counterReg.toNat = (s.counterReg.toNat + t) % 2 ^ N := by
  induction t with
  | zero => exact (Nat.mod_eq_of_lt s.counterReg.isLt).symm
  | succ t ih =>
    have hone : (1 : BitVec N).toNat = 1 % 2 ^ N := BitVec.toNat_ofNat 1 N
    rw [Function.iterate_succ_apply', next, BitVec.toNat_add, ih, hone, ← Nat.add_mod,
      Nat.add_assoc]

lemma passes_allOnes (hN : 1 ≤ N) (s : State N) : passes s (BitVec.allOnes N) = true := by
  have hlt := s.counterReg.isLt
  have htwo : 2 ^ 1 ≤ 2 ^ N := Nat.pow_le_pow_right (by decide) hN
  have hne : BitVec.allOnes N ≠ 0 := by
    intro h
    have htop : (BitVec.allOnes N).toNat = 0 := (congrArg BitVec.toNat h).trans BitVec.toNat_zero
    rw [BitVec.toNat_allOnes] at htop
    omega
  refine passes_iff.mpr ⟨hne, ?_⟩
  rw [BitVec.toNat_allOnes]
  omega

/-! ### Duty -/

/-- The clocks of a window on which the input is to pass. -/
def brightness (w : BitVec N) : ℕ := if w = 0 then 0 else w.toNat + 1

lemma brightness_le (w : BitVec N) : brightness w ≤ 2 ^ N := by
  have hw := w.isLt
  unfold brightness
  split <;> omega

theorem brightness_lt (h : w < w') : brightness w < brightness w' := by
  have hlt : w.toNat < w'.toNat := h
  have hne : w' ≠ 0 := by
    rintro rfl
    exact Nat.not_lt_zero _ hlt
  unfold brightness
  rw [if_neg hne]
  split <;> omega

/-- What passes, by the clocks since the counter was zero. -/
def passesAt (w : BitVec N) (t : ℕ) : Bool := decide (t % 2 ^ N < brightness w)

lemma passes_iterate (s : State N) (w : BitVec N) (t : ℕ) :
    passes (next^[t] s) w = passesAt w (s.counterReg.toNat + t) := by
  rw [Bool.eq_iff_iff, passes_iff, counterReg_iterate, passesAt, decide_eq_true_iff, brightness]
  split
  · next h => exact iff_of_false (fun hp => hp.1 h) (Nat.not_lt_zero _)
  · next h => rw [Nat.lt_succ_iff, and_iff_right h]

/-- From zero on the input passes first, and then no more. -/
lemma ticks_passesAt (w : BitVec N) {n : ℕ} (hn : n ≤ 2 ^ N) :
    ticks (passesAt w) 0 n = min n (brightness w) := by
  induction n with
  | zero => simp
  | succ n ih =>
    rw [ticks_succ, ih (by omega), Nat.zero_add]
    simp only [passesAt, Nat.mod_eq_of_lt hn, decide_eq_true_eq]
    split <;> omega

/-- **In every window of `2 ^ N` clocks the input passes on `w + 1` of them**, or on none. -/
theorem ticks_passes (s : State N) (w : BitVec N) (a : ℕ) :
    ticks (fun t => passes (next^[t] s) w) a (2 ^ N) = brightness w := by
  have hwindow : ticks (fun t => passes (next^[t] s) w) a (2 ^ N) =
      ticks (passesAt w) (s.counterReg.toNat + a) (2 ^ N) := by
    simp only [ticks, passes_iterate, Nat.add_assoc]
  have hperiodic : ∀ t, passesAt w (t + 2 ^ N) = passesAt w t := fun t => by
    rw [passesAt, passesAt, Nat.add_mod_right]
  rw [hwindow, ticks_of_periodic hperiodic, ticks_passesAt w le_rfl, min_eq_right (brightness_le w)]

/-- **The duty of the output**: a constant input is on it for `w + 1` clocks of every window, and
zero on all others; the more the larger `w` is, and always at full brightness. -/
theorem duty (hN : 1 ≤ N) (s : State N) :
    (∀ (w : BitVec N) (a : ℕ), ticks (fun t => passes (next^[t] s) w) a (2 ^ N) =
      if w = 0 then 0 else w.toNat + 1) ∧
      (∀ (w : BitVec N) (inp : BitVec M) (t : ℕ), out (next^[t] s) w inp =
        if passes (next^[t] s) w then inp else 0) ∧
      (∀ (w : BitVec N) (inp : BitVec M) (a : ℕ), inp ≠ 0 →
        ticks (fun t => out (next^[t] s) w inp == inp) a (2 ^ N) =
          if w = 0 then 0 else w.toNat + 1) ∧
      (∀ (w w' : BitVec N) (a : ℕ), w < w' → ticks (fun t => passes (next^[t] s) w) a (2 ^ N) <
        ticks (fun t => passes (next^[t] s) w') a (2 ^ N)) ∧
      ∀ (inp : BitVec M) (t : ℕ), out (next^[t] s) (BitVec.allOnes N) inp = inp := by
  refine ⟨ticks_passes s, fun _ _ _ => rfl, fun w inp a hinp => ?_, fun w w' a h => ?_,
    fun inp t => ?_⟩
  · rw [← brightness, ← ticks_passes s w a]
    refine congrArg (fun f => ticks f a (2 ^ N)) (funext fun t => ?_)
    unfold out
    cases passes (next^[t] s) w with
    | true => exact beq_self_eq_true inp
    | false => simpa using hinp.symm
  · rw [ticks_passes, ticks_passes]
    exact brightness_lt h
  · rw [out, if_pos (passes_allOnes hN _)]

/-- Four bits, as the modules of the display count. -/
theorem duty_four : ticks (fun t => passes (next^[t] (reset : State 4)) 5) 3 16 = 6 :=
  (duty (M := 1) (by decide) (reset : State 4)).1 5 3

end Blastit.Rtl.Pwm
