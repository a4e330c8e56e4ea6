import Blastit.Lib.Clocked
import Blastit.Lib.Sizing
import Blastit.Lib.Ticks

/-!
`mod_m_counter.v`: a counter that wraps after `m` and raises `max_tick` on the clock after
the wrap. With `m` held constant it is a countdown of period `m + 1`.
-/

namespace Blastit.Rtl.ModMCounter

open Blastit.Lib.Clocked Blastit.Lib.Sizing Blastit.Lib.Ticks

structure State (M : ℕ) where
  rReg : BitVec M
  maxTickReg : Bool
  deriving DecidableEq

variable {M : ℕ}

def reset : State M := ⟨0, false⟩

def next (s : State M) (m : BitVec M) : State M :=
  if s.rReg == m then ⟨0, true⟩ else ⟨s.rReg + 1, false⟩

def maxTick (s : State M) : Bool := s.maxTickReg

/-- The phases a counter with the constant input `m` goes through. -/
structure Phase (m : BitVec M) (s : State M) : Prop where
  le : s.rReg.toNat ≤ m.toNat
  tick : s.maxTickReg = true → s.rReg = 0

/-- The clocks until `max_tick` is next high. -/
def countdown (m : BitVec M) (s : State M) : ℕ :=
  if s.maxTickReg then 0 else m.toNat - s.rReg.toNat + 1

lemma phase_reset (m : BitVec M) : Phase m (reset : State M) :=
  ⟨by simp [reset], by simp [reset]⟩

lemma Phase.next {m : BitVec M} {s : State M} (h : Phase m s) : Phase m (next s m) := by
  unfold ModMCounter.next
  by_cases he : s.rReg = m
  · rw [if_pos (by simpa using he)]
    exact ⟨by simp, fun _ => rfl⟩
  · rw [if_neg (by simpa using he)]
    have hne : s.rReg.toNat ≠ m.toNat := mt BitVec.eq_of_toNat_eq he
    have hle := h.le
    have hm := m.isLt
    refine ⟨?_, fun hf => by cases hf⟩
    rw [toNat_succ (by omega)]
    omega

lemma countdown_le {m : BitVec M} (s : State M) : countdown m s ≤ m.toNat + 1 := by
  unfold countdown
  split <;> omega

lemma maxTick_iff {m : BitVec M} (s : State M) : maxTick s = true ↔ countdown m s = 0 := by
  unfold countdown maxTick
  split <;> simp_all

lemma countdown_next {m : BitVec M} {s : State M} (h : Phase m s) :
    countdown m (next s m) = if countdown m s = 0 then m.toNat else countdown m s - 1 := by
  have hle := h.le
  have hm := m.isLt
  unfold ModMCounter.next
  by_cases he : s.rReg = m
  · rw [if_pos (by simpa using he)]
    have : countdown m (⟨0, true⟩ : State M) = 0 := rfl
    rw [this]
    unfold countdown
    cases ht : s.maxTickReg with
    | false => simp [he]
    | true => rw [← he, h.tick ht]; simp
  · rw [if_neg (by simpa using he)]
    have hne : s.rReg.toNat ≠ m.toNat := mt BitVec.eq_of_toNat_eq he
    have hr : (s.rReg + 1).toNat = s.rReg.toNat + 1 := toNat_succ (by omega)
    unfold countdown
    cases ht : s.maxTickReg with
    | false => simp only [hr, Bool.false_eq_true, if_false]; split <;> omega
    | true =>
      have h0 : s.rReg.toNat = 0 := by rw [h.tick ht]; rfl
      simp only [hr, h0, Bool.false_eq_true, if_false, if_true]
      omega

variable {s₀ : State M} {m : BitVec M}

lemma phase_exec (h : Phase m s₀) (t : ℕ) : Phase m (exec next s₀ (fun _ => m) t) :=
  exec_inv h (fun _ i hs (hi : i = m) => by rw [hi]; exact hs.next) t fun _ _ => rfl

/-- **A counter with a constant input is a countdown of period `m + 1`.** -/
theorem train (h : Phase m s₀) :
    Train (m.toNat + 1) (fun t => countdown m (exec next s₀ (fun _ => m) t))
      (fun t => maxTick (exec next s₀ (fun _ => m) t)) where
  pos := Nat.succ_pos _
  tick_iff _ := maxTick_iff _
  step t := countdown_next (phase_exec h t)

lemma periodic (h : Phase m s₀) : ∃ φ < m.toNat + 1, ∀ k,
    maxTick (exec next s₀ (fun _ => m) (k + 1)) = true ↔ k % (m.toNat + 1) = φ := by
  have htrain := train h
  have hlt := htrain.lt_succ (a := 0) (countdown_le _)
  refine ⟨_, hlt, fun k => ?_⟩
  rw [Nat.add_comm k 1]
  exact htrain.tick_iff_mod hlt k

/-! ### Out of reset -/

/-- `max_tick`, clock by clock. -/
def maxTickAt (m : BitVec M) (t : ℕ) : Bool := maxTick (exec next reset (fun _ => m) t)

/-- Every `P` clocks after the release have one tick among them. -/
def OncePer (m : BitVec M) (P : ℕ) : Prop := ∀ a, 0 < a → ticks (maxTickAt m) a P = 1

/-- Two ticks with none between them are `P` clocks apart. -/
def Apart (m : BitVec M) (P : ℕ) : Prop :=
  ∀ i n, maxTickAt m i = true → ticks (maxTickAt m) (i + 1) n = 0 →
    maxTickAt m (i + 1 + n) = true → n + 1 = P

lemma train_reset (m : BitVec M) :
    Train (m.toNat + 1) (fun t => countdown m (exec next reset (fun _ => m) t)) (maxTickAt m) :=
  train (phase_reset m)

lemma countdown_reset (m : BitVec M) : countdown m reset = m.toNat + 1 := by
  simp [countdown, reset]

theorem oncePer_iff (m : BitVec M) (P : ℕ) : OncePer m P ↔ P = m.toNat + 1 := by
  have htrain := train_reset m
  constructor
  · intro h
    exact htrain.eq_of_once (a := 1) fun b hb => h b hb
  · rintro rfl a ha
    obtain ⟨t, rfl⟩ := Nat.exists_eq_succ_of_ne_zero (Nat.ne_of_gt ha)
    exact htrain.ticks_period (htrain.lt_succ (countdown_le _))

theorem apart_iff (m : BitVec M) (P : ℕ) : Apart m P ↔ P = m.toNat + 1 := by
  have htrain := train_reset m
  constructor
  · intro h
    -- the first tick of all and the next one
    have hfirst := htrain.tick_at 0 0
    have hnext := htrain.tick_at 0 1
    simp only [exec_zero, countdown_reset] at hfirst hnext
    have hgap : ticks (maxTickAt m) (m.toNat + 1 + 1) m.toNat = 0 := by
      have hstep := htrain.step (m.toNat + 1)
      rw [if_pos ((htrain.tick_iff _).mp (by simpa using hfirst))] at hstep
      have := htrain.lt_ticks_iff (m.toNat + 1 + 1) 0 m.toNat
      omega
    refine (h (m.toNat + 1) m.toNat (by simpa using hfirst) hgap ?_).symm
    convert hnext using 2
    omega
  · rintro rfl i n hi hgap hj
    exact htrain.eq_of_gap hi hgap hj

end Blastit.Rtl.ModMCounter
