import Blastit.Rtl.ModMCounter

/-!
`tick_counter.v` and `timer_counter.v`: a counter of the clocks on which its input is high,
with a flag that stays high once the counter has wrapped, and the timer that feeds one from
a mod-m counter.
-/

namespace Blastit.Rtl

open Blastit.Lib.Clocked Blastit.Lib.Ticks

namespace TickCounter

structure State (N : ℕ) where
  counterReg : BitVec N
  ofReg : Bool
  deriving DecidableEq

variable {N : ℕ}

def reset : State N := ⟨0, false⟩

def next (s : State N) (tick : Bool) : State N :=
  let counterNext := s.counterReg + if tick then 1 else 0
  ⟨counterNext, if counterNext < s.counterReg then true else s.ofReg⟩

/-- The counter has seen `n` ticks. -/
structure Counts (n : ℕ) (s : State N) : Prop where
  counter : s.counterReg.toNat = n % 2 ^ N
  overflow : s.ofReg = true ↔ 2 ^ N ≤ n

lemma counts_reset : Counts 0 (reset : State N) where
  counter := by simp [reset]
  overflow := by
    have := Nat.two_pow_pos N
    simp [reset]

lemma next_no_tick (s : State N) : next s false = s := by
  simp [next]

/-- The number a tick leads to, and when it is smaller than the one before. -/
lemma succ_mod {n : ℕ} (hN : 1 ≤ N) :
    (n % 2 ^ N + 1) % 2 ^ N = (n + 1) % 2 ^ N ∧
      ((n + 1) % 2 ^ N < n % 2 ^ N ↔ n % 2 ^ N + 1 = 2 ^ N) := by
  have h2 : 2 ≤ 2 ^ N := by
    calc 2 = 2 ^ 1 := rfl
      _ ≤ 2 ^ N := Nat.pow_le_pow_right (by omega) hN
  have hlt : n % 2 ^ N < 2 ^ N := Nat.mod_lt _ (by omega)
  have he : (n % 2 ^ N + 1) % 2 ^ N = (n + 1) % 2 ^ N := Nat.mod_add_mod n (2 ^ N) 1
  refine ⟨he, ?_⟩
  rw [← he]
  rcases Nat.lt_or_ge (n % 2 ^ N + 1) (2 ^ N) with h | h
  · rw [Nat.mod_eq_of_lt h]
    omega
  · have h' : n % 2 ^ N + 1 = 2 ^ N := by omega
    rw [h', Nat.mod_self]
    omega

/-- The step past a multiple of `2 ^ N` is the first only if no count before had wrapped. -/
lemma wraps_iff {n : ℕ} : n % 2 ^ N + 1 = 2 ^ N ∨ 2 ^ N ≤ n ↔ 2 ^ N ≤ n + 1 := by
  have hpos := Nat.two_pow_pos N
  constructor
  · rintro (h | h)
    · have := Nat.mod_le n (2 ^ N)
      omega
    · omega
  · intro h
    rcases Nat.lt_or_ge n (2 ^ N) with hn | hn
    · rw [Nat.mod_eq_of_lt hn]
      omega
    · exact Or.inr hn

lemma Counts.next_tick {n : ℕ} {s : State N} (hN : 1 ≤ N) (h : Counts n s) :
    Counts (n + 1) (next s true) := by
  obtain ⟨hmod, hwrap⟩ := succ_mod (n := n) hN
  have h1 : (1 : BitVec N).toNat = 1 := by
    show 1 % 2 ^ N = 1
    exact Nat.mod_eq_of_lt (Nat.one_lt_two_pow (by omega))
  have hnext : (s.counterReg + 1).toNat = (n + 1) % 2 ^ N := by
    rw [BitVec.toNat_add, h1, h.counter, hmod]
  refine ⟨hnext, ?_⟩
  have hlt : s.counterReg + 1 < s.counterReg ↔ n % 2 ^ N + 1 = 2 ^ N := by
    rw [BitVec.lt_def, hnext, h.counter, hwrap]
  simp only [next, if_true, hlt]
  rw [← wraps_iff, ← h.overflow]
  split_ifs with hw <;> simp [hw]

/-- **The counter counts its ticks**, modulo `2 ^ N`, and remembers that there were `2 ^ N`. -/
theorem counts_exec (hN : 1 ≤ N) (tick : ℕ → Bool) (t : ℕ) :
    Counts (ticks tick 0 t) (exec next (reset : State N) tick t) := by
  induction t with
  | zero => exact counts_reset
  | succ t ih =>
    rw [exec_succ, ticks_succ, Nat.zero_add]
    cases tick t with
    | false => simpa [next_no_tick] using ih
    | true => simpa using ih.next_tick hN

end TickCounter

namespace TimerCounter

structure State (M N : ℕ) where
  counterM : ModMCounter.State M
  counterN : TickCounter.State N
  deriving DecidableEq

variable {M N : ℕ}

def reset : State M N := ⟨ModMCounter.reset, TickCounter.reset⟩

def maxTick (s : State M N) : Bool := ModMCounter.maxTick s.counterM

def next (s : State M N) (m : BitVec M) : State M N :=
  ⟨ModMCounter.next s.counterM m, TickCounter.next s.counterN (maxTick s)⟩

variable {m : BitVec M}

lemma counterM_exec (t : ℕ) :
    (exec next (reset : State M N) (fun _ => m) t).counterM =
      exec ModMCounter.next ModMCounter.reset (fun _ => m) t :=
  exec_part (fun _ => rfl) t

lemma counterN_exec (t : ℕ) :
    (exec next (reset : State M N) (fun _ => m) t).counterN =
      exec TickCounter.next TickCounter.reset
        (fun u => maxTick (exec next (reset : State M N) (fun _ => m) u)) t :=
  exec_part (fun _ => rfl) t

lemma maxTick_exec (t : ℕ) :
    maxTick (exec next (reset : State M N) (fun _ => m) t) = ModMCounter.maxTickAt m t := by
  rw [maxTick, counterM_exec]
  rfl

lemma ticks_exec (t : ℕ) :
    ticks (fun u => maxTick (exec next (reset : State M N) (fun _ => m) u)) 0 t =
      (t - 1) / (m.toNat + 1) := by
  simp only [maxTick_exec]
  exact (ModMCounter.train_reset m).ticks_fresh (ModMCounter.countdown_reset m) t

/-- **What a timer shows** after `t` clocks: the ticks of its mod-m counter. -/
theorem counts_exec (hN : 1 ≤ N) (t : ℕ) :
    TickCounter.Counts
      (ticks (fun u => maxTick (exec next (reset : State M N) (fun _ => m) u)) 0 t)
      (exec next (reset : State M N) (fun _ => m) t).counterN := by
  rw [counterN_exec]
  exact TickCounter.counts_exec hN _ t

end TimerCounter

end Blastit.Rtl
