import Blastit.Rtl.ModMCounter
import Mathlib.Tactic.IntervalCases

/-!
`reset_controller.v`: a one-shot that holds its output for a number of clocks.

Its counter is reset by `ready`, asynchronously, so it starts from nothing on the clock the
controller enters its `RESET` state. The controller's own `reset` is tied low in
`blastit_main.v` and left out.
-/

namespace Blastit.Rtl.ResetController

open Blastit.Lib.Clocked Blastit.Lib.Ticks

inductive Phase
  | start | reset
  deriving DecidableEq

structure State (M : ℕ) where
  stateReg : Phase
  mReg : BitVec M
  tickCounter : ModMCounter.State M

structure In (M : ℕ) where
  start : Bool
  m : BitVec M

variable {M : ℕ}

def en (s : State M) : Bool := s.stateReg == .reset

def ready (s : State M) : Bool := !en s

def counter (s : State M) : ModMCounter.State M :=
  if ready s then ModMCounter.reset else s.tickCounter

def resetTick (s : State M) : Bool := ModMCounter.maxTick (counter s)

/-- `start && m > 0`. -/
def In.go (i : In M) : Bool := i.start && decide (0 < i.m)

def next (s : State M) (i : In M) : State M where
  stateReg := if resetTick s then .start else if i.go then .reset else s.stateReg
  mReg := if resetTick s then 0 else if i.go then i.m else s.mReg
  tickCounter := if ready s then ModMCounter.reset else ModMCounter.next s.tickCounter s.mReg

variable {s : State M} {i : In M} {m : BitVec M}

lemma en_iff (s : State M) : en s = true ↔ s.stateReg = .reset := by
  simp [en]

/-! ### Waiting -/

lemma resetTick_idle (h : s.stateReg = .start) : resetTick s = false := by
  simp [resetTick, counter, ready, en, h, ModMCounter.maxTick, ModMCounter.reset]

lemma next_idle (h : s.stateReg = .start) (hi : i.start = false ∨ i.m = 0) :
    (next s i).stateReg = .start := by
  have hno : i.go = false := by
    rcases hi with hi | hi <;> simp [In.go, hi]
  simp [next, hno, resetTick_idle h, h]

/-! ### Holding -/

/-- The controller has held its output for `j` clocks and one, of `m` and two. -/
structure Holding (m : BitVec M) (j : ℕ) (s : State M) : Prop where
  phase : s.stateReg = .reset
  mReg : s.mReg = m
  counter : s.tickCounter = exec ModMCounter.next ModMCounter.reset (fun _ => m) j

lemma next_start (h : s.stateReg = .start) (hs : i.start = true) (hm : 0 < i.m) :
    Holding i.m 0 (next s i) := by
  have hgo : i.go = true := by
    rw [In.go, hs, decide_eq_true hm]
    rfl
  have hready : ready s = true := by simp [ready, en, h]
  constructor <;> simp [next, hgo, resetTick_idle h, hready]

/-- The counter of a holding controller is a countdown of `m + 1` clocks. -/
lemma Holding.resetTick_iff {j : ℕ} (h : Holding m j s) (hj : j ≤ m.toNat + 1) :
    resetTick s = true ↔ j = m.toNat + 1 := by
  have htrain := ModMCounter.train_reset m
  have hready : ready s = false := by simp [ready, en, h.phase]
  have ht : resetTick s = true ↔ ∃ q, j = (q + 1) * (m.toNat + 1) := by
    rw [← htrain.tick_fresh (ModMCounter.countdown_reset m), resetTick, ResetController.counter, hready, h.counter]
    rfl
  rw [ht]
  constructor
  · rintro ⟨q, rfl⟩
    rw [Nat.succ_mul] at hj ⊢
    have := Nat.zero_le (q * (m.toNat + 1))
    omega
  · rintro rfl
    exact ⟨0, by omega⟩

lemma Holding.next {j : ℕ} (h : Holding m j s) (hj : j < m.toNat + 1)
    (hi : i.start = true → i.m = m) : Holding m (j + 1) (next s i) := by
  obtain ⟨hph, hm, hc⟩ := h
  have htick : resetTick s = false := by
    rw [Bool.eq_false_iff, ne_eq, Holding.resetTick_iff ⟨hph, hm, hc⟩ (by omega)]
    omega
  have hready : ready s = false := by simp [ready, en, hph]
  have hcount : ModMCounter.next s.tickCounter s.mReg =
      exec ModMCounter.next ModMCounter.reset (fun _ => m) (j + 1) := by
    rw [hm, hc, exec_succ]
  constructor
  · simp [ResetController.next, htick, hph]
  · simp only [ResetController.next, htick, Bool.false_eq_true, if_false]
    split
    · next hgo =>
      rw [In.go, Bool.and_eq_true] at hgo
      exact hi hgo.1
    · exact hm
  · simp only [ResetController.next, hready, Bool.false_eq_true, if_false]
    exact hcount

lemma Holding.last (h : Holding m (m.toNat + 1) s) : (ResetController.next s i).stateReg = .start := by
  have htick : resetTick s = true := (h.resetTick_iff (Nat.le_refl _)).mpr rfl
  simp [ResetController.next, htick]

/-! ### Runs -/

variable {inp : ℕ → In M}

/-- **A start with count `m` holds the output for `m + 2` clocks**, as long as the control
word asks for nothing else. -/
theorem holding_exec (h : s.stateReg = .start) (h0 : (inp 0).start = true) (hm : 0 < (inp 0).m)
    {j : ℕ} (hsame : ∀ t ≤ j, (inp t).start = true → (inp t).m = (inp 0).m)
    (hj : j ≤ (inp 0).m.toNat + 1) : Holding (inp 0).m j (exec next s inp (j + 1)) := by
  induction j with
  | zero => exact next_start h h0 hm
  | succ j ih =>
    rw [exec_succ]
    exact (ih (fun t ht => hsame t (by omega)) (by omega)).next (by omega) (hsame _ (le_refl _))

lemma idle_exec {a t : ℕ} (h : (exec next s inp a).stateReg = .start) (ht : a ≤ t)
    (hno : ∀ u, a ≤ u → u < t → (inp u).start = false ∨ (inp u).m = 0) :
    (exec next s inp t).stateReg = .start := by
  induction t, ht using Nat.le_induction with
  | base => exact h
  | succ t ht ih => exact next_idle (ih fun u hu hut => hno u hu (by omega)) (hno t ht (by omega))

/-- **The output of a one-shot**: `m + 2` clocks from the one after the start on, where the start
is let go in time. -/
theorem en_exec {k n : ℕ} (h : s.stateReg = .start) (hm : 0 < m) (hk : 1 ≤ k)
    (hk' : k ≤ m.toNat + 2) (hstart : ∀ j < k, inp j = ⟨true, m⟩)
    (hlow : ∀ j, k ≤ j → j < n → (inp j).start = false) {j : ℕ} (hj : j ≤ n) :
    en (exec next s inp j) = true ↔ 1 ≤ j ∧ j ≤ m.toNat + 2 := by
  have h0 : inp 0 = ⟨true, m⟩ := hstart 0 hk
  have hhold : ∀ i, i ≤ m.toNat + 1 → i < n → Holding m i (exec next s inp (i + 1)) := by
    intro i hi hin
    have hsame : ∀ t ≤ i, (inp t).start = true → (inp t).m = (inp 0).m := by
      intro t ht hs
      rcases Nat.lt_or_ge t k with htk | htk
      · rw [hstart t htk, h0]
      · rw [hlow t htk (by omega)] at hs
        cases hs
    have := holding_exec h (by rw [h0]) (by rw [h0]; exact hm) hsame (by rw [h0]; exact hi)
    rwa [h0] at this
  rw [en_iff]
  rcases Nat.eq_zero_or_pos j with rfl | hpos
  · simp [h]
  rcases Nat.lt_or_ge (m.toNat + 2) j with hlate | hin
  · have hend : (exec next s inp (m.toNat + 3)).stateReg = .start :=
      (hhold (m.toNat + 1) (le_refl _) (by omega)).last
    have hidle := idle_exec hend hlate fun u hu hut => Or.inl (hlow u (by omega) (by omega))
    rw [hidle]
    exact iff_of_false Phase.noConfusion (by omega)
  · have hon := (hhold (j - 1) (by omega) (by omega)).phase
    rw [Nat.sub_add_cancel hpos] at hon
    exact iff_of_true hon ⟨hpos, hin⟩

lemma ready_iff (s : State M) : ready s = true ↔ s.stateReg = .start := by
  rw [ready, Bool.not_eq_true', ← Bool.not_eq_true, en_iff]
  cases s.stateReg <;> simp

lemma next_count_zero (s : State M) (h : i.m = 0) : next s i = next s ⟨false, 0⟩ := by
  simp [next, In.go, h]

/-- **Every pulse has its length**, the first one and the later ones: from any clock of any run on
which the controller is ready. A start without a count does nothing. -/
theorem pulse_length (s₀ : State M) (inp : ℕ → In M) :
    (∀ (a k n : ℕ) (m : BitVec M), ready (exec next s₀ inp a) = true → 0 < m → 1 ≤ k →
      k ≤ m.toNat + 2 → (∀ j < k, inp (a + j) = ⟨true, m⟩) →
      (∀ j, k ≤ j → j < n → (inp (a + j)).start = false) →
      ∀ j ≤ n, en (exec next s₀ inp (a + j)) = true ↔ 1 ≤ j ∧ j ≤ m.toNat + 2) ∧
      (∀ t, (inp t).m = 0 → exec next s₀ inp (t + 1) = next (exec next s₀ inp t) ⟨false, 0⟩ ∧
        (ready (exec next s₀ inp t) = true → ready (exec next s₀ inp (t + 1)) = true)) ∧
      ∀ t, ready (exec next s₀ inp t) = !en (exec next s₀ inp t) := by
  refine ⟨fun a k n m ha hm hk hk' hstart hlow j hj => ?_, fun t ht => ⟨?_, fun hidle => ?_⟩,
    fun t => rfl⟩
  · rw [exec_add]
    exact en_exec ((ready_iff _).mp ha) hm hk hk' hstart hlow hj
  · rw [exec_succ, next_count_zero _ ht]
  · rw [ready_iff] at hidle ⊢
    rw [exec_succ]
    exact next_idle hidle (Or.inr ht)

def twoStarts (t : ℕ) : In 8 := ⟨t == 0 || t == 9 || t == 10, 3⟩

/-- The fifth clock after the second start is the last one of its pulse. -/
theorem pulse_length_twoStarts :
    (en (exec next ⟨.start, 0, ModMCounter.reset⟩ twoStarts (9 + 5)) = true ↔ 1 ≤ 5 ∧ 5 ≤ 3 + 2) ∧
      (en (exec next ⟨.start, 0, ModMCounter.reset⟩ twoStarts (9 + 6)) = true ↔
        1 ≤ 6 ∧ 6 ≤ 3 + 2) := by
  have hstart : ∀ i < 2, twoStarts (9 + i) = ⟨true, 3⟩ := by
    intro i hi
    interval_cases i <;> rfl
  have hpulse := (pulse_length ⟨.start, 0, ModMCounter.reset⟩ twoStarts).1 9 2 7 3 (by decide)
    (by decide) (by decide) (by decide) hstart (by decide)
  exact ⟨hpulse 5 (by decide), hpulse 6 (by decide)⟩

end Blastit.Rtl.ResetController
