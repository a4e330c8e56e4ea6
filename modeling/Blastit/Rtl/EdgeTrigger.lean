import Blastit.Lib.Clocked
import Blastit.Lib.Runs
import Blastit.Lib.Ticks

/-!
`edge_trigger.v`: a tick on the first clock of every pulse.
-/

namespace Blastit.Rtl.EdgeTrigger

open Blastit.Lib.Clocked Blastit.Lib.Runs Blastit.Lib.Ticks

inductive Phase
  | waitTrigger | triggered
  deriving DecidableEq

structure State where
  inReg : Bool
  stateReg : Phase
  deriving DecidableEq

def reset : State := ⟨false, .waitTrigger⟩

def tick (s : State) (en inp : Bool) : Bool :=
  match s.stateReg with
  | .waitTrigger => inp == en && s.inReg == !en
  | .triggered => false

def next (en : Bool) (s : State) (inp : Bool) : State :=
  { inReg := inp
    stateReg :=
      match s.stateReg with
      | .waitTrigger => if inp == en && s.inReg == !en then .triggered else .waitTrigger
      | .triggered => if inp == !en then .waitTrigger else .triggered }

/-- The first clock of a pulse: high, and low on the clock before. -/
def pulse (inp : ℕ → Bool) : ℕ → Bool
  | 0 => inp 0
  | t + 1 => inp (t + 1) && !inp t

/-- An input that is high from clock `a` up to clock `b` has one pulse. -/
lemma pulse_eq_of_interval {inp : ℕ → Bool} {a b : ℕ} (hab : a < b)
    (h : ∀ t, inp t = decide (a ≤ t ∧ t < b)) (t : ℕ) : pulse inp t = decide (t = a) := by
  rw [Bool.eq_iff_iff, decide_eq_true_iff]
  cases t with
  | zero =>
    rw [pulse, h, decide_eq_true_iff]
    omega
  | succ t =>
    simp only [pulse, h, Bool.and_eq_true, Bool.not_eq_true', decide_eq_true_eq,
      decide_eq_false_iff_not]
    omega

lemma pulse_of_low {inp : ℕ → Bool} (h : ∀ t, inp t = false) (t : ℕ) : pulse inp t = false := by
  cases t <;> simp [pulse, h]

lemma exec_next (inp : ℕ → Bool) (t : ℕ) :
    exec (next true) reset inp (t + 1) =
      ⟨inp t, if inp t then .triggered else .waitTrigger⟩ := by
  induction t with
  | zero => cases h : inp 0 <;> simp [exec_succ, reset, next, h]
  | succ t ih =>
    rw [exec_succ, ih]
    cases inp t <;> cases inp (t + 1) <;> simp [next]

lemma tick_exec (inp : ℕ → Bool) (t : ℕ) :
    tick (exec (next true) reset inp t) true (inp t) = pulse inp t := by
  cases t with
  | zero => simp [tick, reset, pulse]
  | succ t =>
    rw [exec_next]
    cases h : inp t <;> simp [tick, pulse, h]

lemma exec_low {inp : ℕ → Bool} {n : ℕ} (hn : 0 < n) (hlow : inp (n - 1) = false) :
    exec (next true) reset inp n = reset := by
  obtain ⟨t, rfl⟩ := Nat.exists_eq_succ_of_ne_zero (Nat.ne_of_gt hn)
  have hlast : inp t = false := hlow
  rw [exec_next, hlast]
  rfl

/-! ### Runs of a waveform -/

lemma pulse_iff (inp : ℕ → Bool) (t : ℕ) : pulse inp t = true ↔ Begins inp t := by
  cases t <;> simp [pulse, Begins]

lemma tick_iff (inp : ℕ → Bool) (t : ℕ) :
    tick (exec (next true) reset inp t) true (inp t) = true ↔ Begins inp t := by
  rw [tick_exec, pulse_iff]

/-- **One tick for every run of the input.** -/
theorem ticks_exec (inp : ℕ → Bool) (n : ℕ) :
    ticks (fun t => tick (exec (next true) reset inp t) true (inp t)) 0 n =
      {p : ℕ × ℕ | MaximalRun inp n p.1 p.2}.ncard := by
  simp only [ticks, Nat.zero_add, tick_iff, ncard_maximalRun]

end Blastit.Rtl.EdgeTrigger
