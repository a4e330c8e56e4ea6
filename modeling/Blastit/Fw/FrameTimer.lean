import Blastit.Fw.Timers
import Blastit.Fw.WaitTick

/-!
`controller.c` on the timers: the frames `is_frame` tells of, and how long `wait_tick` waits.

A timer ticks for the first time `m + 2` clocks after its release and every `m + 1` clocks
from then on. `is_frame` restarts the timer when it has ticked, so what it does not see in
time is not made up for.
-/

namespace Blastit.Fw.FrameTimer

open Blastit.Lib.Clocked Blastit.Lib.Polls Blastit.Rtl Blastit.Fw.Timers

/-! ### `is_frame` -/

/-- The registers, the timers, and the clocks that have passed. -/
structure Board where
  regs : Regs
  timers : Bank
  now : ℕ

/-- The pace of a call of `is_frame`: what the registers hold on the clocks before it, one
after the other, and how long `tc_reset` holds them. -/
structure Pace where
  gap : List Regs
  dwell : ℕ → ℕ

/-- The clocks before a call. -/
def Board.pass (b : Board) (gap : List Regs) : Board :=
  ⟨gap.getLast?.getD b.regs, gap.foldl next b.timers, b.now + gap.length⟩

/-- `tc_reset`; the clocks are those of the one content it holds. -/
def tcReset (tc : TcArray) (dwell : ℕ → ℕ) (b : Board) : Board :=
  ⟨(Restart.tcReset.writes tc b.regs).2, Restart.tcReset.released tc dwell b.regs b.timers,
    b.now + dwell 0 + 1⟩

def isFrame (tc : TcArray) (dwell : ℕ → ℕ) (b : Board) : Bool × Board :=
  let frame := tcGetTicks (tcStatus b.timers b.regs) tc
  if 0 < frame then (true, tcReset tc dwell b) else (false, b)

/-- The clock of each call, and what it returns. -/
def isFrames (tc : TcArray) : List Pace → Board → List (ℕ × Bool)
  | [], _ => []
  | p :: ps, b =>
    let b := b.pass p.gap
    let r := isFrame tc p.dwell b
    (b.now, r.1) :: isFrames tc ps r.2

/-- A timer of period `m + 1` shows a tick `t` clocks after its release. -/
def Due (m t : ℕ) : Prop := 0 < (t - 1) / (m + 1) % 2 ^ 24

instance (m t : ℕ) : Decidable (Due m t) := inferInstanceAs (Decidable (_ < _))

/-- The frames of an abstract timer: `since` clocks after its release at clock `now`. A
call that finds a tick starts it anew. -/
def frames (m : ℕ) : List (ℕ × ℕ) → ℕ → ℕ → List (ℕ × Bool)
  | [], _, _ => []
  | (gap, hold) :: rest, since, now =>
    let frame := decide (Due m (since + gap))
    (now + gap, frame) ::
      if frame then frames m rest 0 (now + gap + hold + 1)
      else frames m rest (since + gap) (now + gap)

/-- The calls of a program that leaves the timer alone between them. -/
def Leaves (tc : TcArray) (m : BitVec 32) (p : Pace) : Prop :=
  ∀ r ∈ p.gap, r.resets tc = false ∧ r.tcM tc = m

/-- The timer was released `t` clocks ago. -/
structure Since (tc : TcArray) (m : BitVec 32) (t : ℕ) (b : Board) : Prop where
  timer : b.timers tc = exec TimerCounter.next TimerCounter.reset (fun _ => m) t
  runs : b.regs.resets tc = false
  keeps : b.regs.tcM tc = m

section
variable {tc : TcArray} {m : BitVec 32} {t : ℕ} {b : Board} {p : Pace} {ps : List Pace}

lemma Since.pass (h : Since tc m t b) (hp : Leaves tc m p) :
    Since tc m (t + p.gap.length) (b.pass p.gap) := by
  have hrun : ∀ (l : List Regs) (ts : Bank) (t : ℕ),
      ts tc = exec TimerCounter.next TimerCounter.reset (fun _ => m) t →
      (∀ r ∈ l, r.resets tc = false ∧ r.tcM tc = m) →
      l.foldl next ts tc =
        exec TimerCounter.next TimerCounter.reset (fun _ => m) (t + l.length) := by
    intro l
    induction l with
    | nil => exact fun ts t hts _ => hts
    | cons r l ih =>
      intro ts t hts hl
      obtain ⟨hr, hm⟩ := hl r List.mem_cons_self
      have hnext : next ts r tc =
          exec TimerCounter.next TimerCounter.reset (fun _ => m) (t + 1) := by
        rw [next, if_neg (by simp [hr]), hts, hm, exec_succ]
      rw [List.foldl_cons, ih _ _ hnext fun r' hr' => hl r' (List.mem_cons_of_mem _ hr'),
        List.length_cons]
      congr 1
      omega
  refine ⟨hrun _ _ _ h.timer hp, ?_, ?_⟩
  all_goals
    unfold Board.pass
    cases hlast : p.gap.getLast? with
    | none => first | exact h.runs | exact h.keeps
    | some r =>
      obtain ⟨hr, hm⟩ := hp r (List.mem_of_getLast? hlast)
      first | exact hr | exact hm

/-- **What the timer shows** by the clocks since its release. -/
lemma Since.ticks (h : Since tc m t b) :
    (tcGetTicks (tcStatus b.timers b.regs) tc).toNat = (t - 1) / (m.toNat + 1) % 2 ^ 24 := by
  have hstatus : tcStatus b.timers b.regs tc =
      BitVec.cons (b.timers tc).counterN.ofReg (b.timers tc).counterN.counterReg := by
    rw [tcStatus, if_neg (by simp [h.runs])]
  have hcounts := TimerCounter.counts_exec (M := 32) (N := 24) (m := m) (by decide) t
  rw [tcGetTicks_cons hstatus, h.timer, hcounts.counter, TimerCounter.ticks_exec]

lemma Since.tcReset (h : Since tc m t b) (dwell : ℕ → ℕ) :
    Since tc m 0 (tcReset tc dwell b) := by
  refine ⟨released_eq _ _ _ _ _, ?_, h.keeps⟩
  cases tc <;>
    simp [FrameTimer.tcReset, Restart.writes, Regs.write, Regs.resets, tcResetMap, TcArray.idx]

/-- **The calls see the frames of the abstract timer.** -/
lemma Since.isFrames (h : Since tc m t b) (hp : ∀ p ∈ ps, Leaves tc m p) :
    isFrames tc ps b = frames m.toNat (ps.map fun p => (p.gap.length, p.dwell 0)) t b.now := by
  induction ps generalizing t b with
  | nil => rfl
  | cons p ps ih =>
    have hpass := h.pass (hp p List.mem_cons_self)
    have hps : ∀ q ∈ ps, Leaves tc m q := fun q hq => hp q (List.mem_cons_of_mem _ hq)
    have hframe : 0 < tcGetTicks (tcStatus (b.pass p.gap).timers (b.pass p.gap).regs) tc ↔
        Due m.toNat (t + p.gap.length) := by
      rw [BitVec.lt_def, hpass.ticks]
      rfl
    simp only [FrameTimer.isFrames, isFrame, List.map_cons, frames, hframe]
    by_cases hdue : Due m.toNat (t + p.gap.length)
    · simp only [hdue, if_true, decide_true]
      rw [ih (hpass.tcReset p.dwell) hps]
      rfl
    · simp only [hdue, if_false, decide_false, Bool.false_eq_true]
      rw [ih hpass hps]
      rfl

end

/-! ### The frames of the abstract timer -/

section
variable {m since now : ℕ} {l : List (ℕ × ℕ)} {e : ℕ × Bool}

lemma Due.le {t : ℕ} (h : Due m t) : m + 2 ≤ t := by
  by_contra hlt
  rw [Due, Nat.div_eq_of_lt (by omega)] at h
  exact absurd h (by decide)

/-- The first frame comes `m + 2` clocks after the release. -/
lemma first_frame (he : e ∈ frames m l since now) (hframe : e.2 = true) :
    now + (m + 2) ≤ e.1 + since := by
  induction l generalizing since now with
  | nil => cases he
  | cons p l ih =>
    rw [frames, List.mem_cons] at he
    rcases he with rfl | he
    · have := Due.le (of_decide_eq_true hframe)
      dsimp only
      omega
    · split at he
      · have := ih he
        omega
      · have := ih he
        omega

/-- **Frames are a period and more apart.** -/
lemma frames_pairwise :
    ((frames m l since now).filter (·.2)).Pairwise fun e e' => e.1 + (m + 3) ≤ e'.1 := by
  induction l generalizing since now with
  | nil => exact List.Pairwise.nil
  | cons p l ih =>
    rw [frames]
    by_cases hdue : Due m (since + p.1)
    · simp only [hdue, decide_true, if_true]
      rw [List.filter_cons_of_pos rfl]
      refine List.Pairwise.cons (fun e he => ?_) ih
      obtain ⟨hmem, hframe⟩ := List.mem_filter.mp he
      have := first_frame hmem hframe
      dsimp only
      omega
    · simp only [hdue, decide_false, Bool.false_eq_true, if_false]
      rw [List.filter_cons_of_neg (by simp)]
      exact ih

lemma length_mul_le {d : ℕ} {l : List (ℕ × Bool)} {lo hi : ℕ}
    (hpair : l.Pairwise fun e e' => e.1 + d ≤ e'.1) (hlo : ∀ e ∈ l, lo + d ≤ e.1)
    (hhi : ∀ e ∈ l, e.1 ≤ hi) : l = [] ∨ lo + l.length * d ≤ hi := by
  induction l generalizing lo with
  | nil => exact Or.inl rfl
  | cons e l ih =>
    right
    obtain ⟨he, hl⟩ := List.pairwise_cons.mp hpair
    have hfirst := hlo e List.mem_cons_self
    rcases ih hl he (fun e' he' => hhi e' (List.mem_cons_of_mem _ he')) with rfl | hrest
    · have := hhi e List.mem_cons_self
      simp only [List.length_cons, List.length_nil, Nat.zero_add, Nat.one_mul]
      omega
    · rw [List.length_cons, Nat.succ_mul]
      omega

end

/-- **The frames `is_frame` tells of**: over any number of calls at any pace, with whatever
is done to the other timers in between, each call returns what the abstract timer says; two
that return true are at least `m + 3` clocks apart, so that `n` of them take `n` times
`m + 2` clocks; and a call between `m + 2` and `2 ^ 24 * (m + 1)` clocks after the release
returns true. -/
theorem frames_apart {tc : TcArray} {m : BitVec 32} {b : Board} {ps : List Pace}
    (h : Since tc m 0 b) (hps : ∀ p ∈ ps, Leaves tc m p) :
    isFrames tc ps b = frames m.toNat (ps.map fun p => (p.gap.length, p.dwell 0)) 0 b.now ∧
      ((isFrames tc ps b).filter (·.2)).Pairwise (fun e e' => e.1 + (m.toNat + 3) ≤ e'.1) ∧
      (∀ last, (∀ e ∈ isFrames tc ps b, e.1 ≤ b.now + last) →
        ((isFrames tc ps b).filter (·.2)).length * (m.toNat + 2) ≤ last) ∧
      ∀ t, m.toNat + 2 ≤ t → t ≤ 2 ^ 24 * (m.toNat + 1) → Due m.toNat t := by
  have heq := h.isFrames hps
  refine ⟨heq, heq ▸ frames_pairwise, fun last hlast => ?_, fun t hlo hhi => ?_⟩
  · have hpair : ((isFrames tc ps b).filter (·.2)).Pairwise
        fun e e' => e.1 + (m.toNat + 2) ≤ e'.1 := by
      refine List.Pairwise.imp (fun {e e'} hle => ?_) (heq ▸ frames_pairwise (m := m.toNat))
      exact Nat.le_trans (Nat.add_le_add_left (Nat.le_succ _) _) hle
    have hfirst : ∀ e ∈ (isFrames tc ps b).filter (·.2), b.now + (m.toNat + 2) ≤ e.1 := by
      intro e he
      obtain ⟨hmem, hframe⟩ := List.mem_filter.mp he
      rw [heq] at hmem
      have := first_frame hmem hframe
      omega
    rcases length_mul_le hpair hfirst fun e he => hlast e (List.mem_of_mem_filter he) with
      hnil | hle
    · simp [hnil]
    · omega
  · have hdiv : (t - 1) / (m.toNat + 1) < 2 ^ 24 := by
      rw [Nat.div_lt_iff_lt_mul (Nat.succ_pos _)]
      omega
    rw [Due, Nat.mod_eq_of_lt hdiv]
    exact Nat.div_pos (by omega) (Nat.succ_pos _)

/-- Timer 2 with the maximum 3: calls at clock 4 and 5, and 7 clocks after the restart. -/
def polled : Board := ⟨⟨0, fun _ => 3⟩, fun _ => TimerCounter.reset, 0⟩

def threeCalls : List Pace :=
  [⟨List.replicate 4 polled.regs, fun _ => 0⟩, ⟨[polled.regs], fun _ => 0⟩,
    ⟨List.replicate 7 polled.regs, fun _ => 0⟩]

theorem frames_of_threeCalls : isFrames .tc2 threeCalls polled =
    [(4, false), (5, true), (13, true)] := by
  have hleaves : ∀ p ∈ threeCalls, Leaves .tc2 3 p := by
    unfold Leaves
    decide
  obtain ⟨hframes, -, -, -⟩ := frames_apart (m := 3) (b := polled) ⟨rfl, rfl, rfl⟩ hleaves
  rw [hframes]
  decide

/-! ### `wait_tick` -/

/-- The clocks at which a call of `wait_tick` reads the timer: later and later ones, a period
apart at most. -/
structure Reads (m : ℕ) (T : ℕ → ℕ) : Prop where
  later : ∀ k, T k < T (k + 1)
  near : ∀ k, T (k + 1) ≤ T k + (m + 1)

section
variable {tc : TcArray} {run : Run tc} {T : ℕ → ℕ} {k : ℕ} {n : BitVec 32}

/-- Between two reads the timer ticks once at most. -/
lemma Reads.ticks_succ (hT : Reads run.m.toNat T) (k : ℕ) :
    run.ticks (T k) ≤ run.ticks (T (k + 1)) ∧ run.ticks (T (k + 1)) ≤ run.ticks (T k) + 1 := by
  have hlater := hT.later k
  have hnear := hT.near k
  rw [run.ticks_eq, run.ticks_eq]
  constructor
  · exact Nat.div_le_div_right (by omega)
  · rw [← Nat.add_div_right _ (Nat.succ_pos _)]
    exact Nat.div_le_div_right (by omega)

lemma Reads.le (hT : Reads run.m.toNat T) (k : ℕ) : k ≤ T k := by
  induction k with
  | zero => exact Nat.zero_le _
  | succ k ih =>
    have := hT.later k
    omega

lemma Reads.live (hT : Reads run.m.toNat T) (j : ℕ) :
    ∃ k, j ≤ k ∧ decide (run.ticks (T (k + 1)) ≠ run.ticks (T k)) = true := by
  by_contra hnever
  push Not at hnever
  have hstill : ∀ i, run.ticks (T (j + i)) = run.ticks (T j) := by
    intro i
    induction i with
    | zero => rfl
    | succ i ih =>
      have hi := hnever (j + i) (by omega)
      rw [ne_eq, decide_eq_true_eq, not_not] at hi
      rw [← ih, ← hi]
      rfl
  -- at a read late enough it has ticked once more
  have hlate := hT.le (j + (run.m.toNat + 1) * (run.ticks (T j) + 1))
  have hmore : run.ticks (T j) + 1 ≤
      run.ticks (T (j + (run.m.toNat + 1) * (run.ticks (T j) + 1) + 1)) := by
    have hnext := hT.later (j + (run.m.toNat + 1) * (run.ticks (T j) + 1))
    rw [run.ticks_eq (T (_ + 1)), Nat.le_div_iff_mul_le (show 0 < run.m.toNat + 1 by omega),
      Nat.mul_comm]
    omega
  have := hstill ((run.m.toNat + 1) * (run.ticks (T j) + 1) + 1)
  rw [← Nat.add_assoc] at this
  omega

/-- The timer as a call of `wait_tick` sees it. -/
def counter (run : Run tc) (T : ℕ → ℕ) (hT : Reads run.m.toNat T) : WaitTick.Counter where
  start := BitVec.ofNat 24 (run.ticks (T 0))
  advances k := decide (run.ticks (T (k + 1)) ≠ run.ticks (T k))
  live := hT.live

lemma increments_counter (hT : Reads run.m.toNat T) (k : ℕ) :
    (counter run T hT).increments k + run.ticks (T 0) = run.ticks (T k) := by
  induction k with
  | zero =>
    rw [WaitTick.Counter.increments, Lib.Ticks.ticks_zero, Nat.zero_add]
  | succ k ih =>
    have hstep := hT.ticks_succ k
    rw [WaitTick.Counter.increments, Lib.Ticks.ticks_succ, Nat.zero_add]
    rw [WaitTick.Counter.increments] at ih
    show _ + (if decide (run.ticks (T (k + 1)) ≠ run.ticks (T k)) = true then 1 else 0) + _ = _
    simp only [decide_eq_true_eq]
    split_ifs <;> omega

lemma tcGetTicks_counter (hT : Reads run.m.toNat T) (k : ℕ) :
    (counter run T hT).tcGetTicks k = tcGetTicks (run.status (T k)) tc := by
  apply BitVec.eq_of_toNat_eq
  rw [WaitTick.toNat_tcGetTicks, tcGetTicks_cons (run.status_eq _), (run.counts _).counter,
    ← increments_counter hT k]
  show ((run.ticks (T 0)) % 2 ^ 24 + _) % 2 ^ 24 = _
  rw [Nat.mod_add_mod, Nat.add_comm]

lemma clocks_of_ticks {P a b d : ℕ} (hP : 0 < P) (h : (a - 1) / P + d = (b - 1) / P) (hd : 0 < d) :
    (d - 1) * P < b - a ∧ b - a ≤ (d + 1) * P := by
  have ha := Nat.div_add_mod (a - 1) P
  have hb := Nat.div_add_mod (b - 1) P
  have hra := Nat.mod_lt (a - 1) hP
  have hrb := Nat.mod_lt (b - 1) hP
  obtain ⟨e, rfl⟩ := Nat.exists_eq_succ_of_ne_zero hd.ne'
  rw [← h, Nat.mul_add, Nat.mul_succ] at hb
  rw [Nat.succ_sub_one, Nat.succ_mul, Nat.succ_mul, Nat.mul_comm e P]
  omega

/-- **How long `wait_tick` waits on the timer**: read often enough, it returns if the count of
its first read and `n` make less than `2 ^ 24`, and then it has lasted more than `n - 1`
and at most `n + 1` periods of the timer; otherwise it never returns. -/
theorem waits_periods (hT : Reads run.m.toNat T) (hpos : 0 < n.toNat) (hn : n.toNat < 2 ^ 24) :
    (∀ k, (counter run T hT).tcGetTicks k = tcGetTicks (run.status (T k)) tc) ∧
      ((∃ fuel reads, WaitTick.waitTick (counter run T hT) n fuel = some reads) ↔
        (tcGetTicks (run.status (T 0)) tc).toNat + n.toNat < 2 ^ 24) ∧
      ∀ fuel reads, WaitTick.waitTick (counter run T hT) n fuel = some reads →
        (n.toNat - 1) * (run.m.toNat + 1) < T (reads - 1) - T 0 ∧
          T (reads - 1) - T 0 ≤ (n.toNat + 1) * (run.m.toNat + 1) := by
  have hstart : (tcGetTicks (run.status (T 0)) tc).toNat = (counter run T hT).start.toNat := by
    rw [tcGetTicks_cons (run.status_eq _), (run.counts _).counter]
    rfl
  have hends : ∀ {fuel reads}, WaitTick.waitTick (counter run T hT) n fuel = some reads →
      ∃ k, reads = k + 1 ∧
        First (fun k => decide (WaitTick.Reached (counter run T hT) n k)) 1 k := by
    intro fuel reads hret
    rw [WaitTick.waitTick_eq hpos hn, Option.map_eq_some_iff] at hret
    obtain ⟨k, hk, rfl⟩ := hret
    exact ⟨k, rfl, first_of_poll hk⟩
  have hlt : ∀ {fuel reads}, WaitTick.waitTick (counter run T hT) n fuel = some reads →
      (counter run T hT).start.toNat + n.toNat < 2 ^ 24 := by
    intro fuel reads hret
    obtain ⟨k, -, hfirst⟩ := hends hret
    by_contra hge
    exact WaitTick.not_reached (by omega) (of_decide_eq_true hfirst.holds)
  refine ⟨tcGetTicks_counter hT, ⟨fun ⟨fuel, reads, hret⟩ => hstart ▸ hlt hret, fun h => ?_⟩, ?_⟩
  · obtain ⟨j, hj, hinc⟩ := WaitTick.exists_reached (c := counter run T hT) hpos
    have hreach : WaitTick.Reached (counter run T hT) n j :=
      (WaitTick.reached_iff (by omega) hinc.le).mpr hinc
    obtain ⟨fuel, k, hk⟩ := (exists_poll_iff
      (p := fun k => decide (WaitTick.Reached (counter run T hT) n k))).mpr
      ⟨j, hj, decide_eq_true hreach⟩
    exact ⟨fuel, k + 1, by rw [WaitTick.waitTick_eq hpos hn, hk]; rfl⟩
  · intro fuel reads hret
    have hsum := hlt hret
    obtain ⟨k, rfl, hfirst⟩ := hends hret
    obtain ⟨j, hj, hinc⟩ := WaitTick.exists_reached (c := counter run T hT) hpos
    have hreach : WaitTick.Reached (counter run T hT) n j :=
      (WaitTick.reached_iff hsum hinc.le).mpr hinc
    have hle : (counter run T hT).increments k ≤ n.toNat :=
      hinc ▸ Lib.Ticks.ticks_mono (hfirst.le_of_holds hj (decide_eq_true hreach))
    have hk := (WaitTick.reached_iff hsum hle).mp (of_decide_eq_true hfirst.holds)
    have hticks := increments_counter hT k
    rw [hk, run.ticks_eq, run.ticks_eq, Nat.add_comm] at hticks
    exact clocks_of_ticks (Nat.succ_pos _) hticks hpos

end

lemma reads_id : Reads everyClock.m.toNat id := ⟨fun k => Nat.lt_succ_self k, fun k => by simp⟩

/-- One tick of a timer that ticks on every clock. -/
theorem waits_everyClock : ∃ fuel reads,
    WaitTick.waitTick (counter everyClock id reads_id) 1 fuel = some reads ∧ id (reads - 1) ≤ 2 := by
  obtain ⟨-, hreturns, hperiods⟩ := waits_periods (n := 1) reads_id (by decide) (by decide)
  obtain ⟨fuel, reads, hret⟩ := hreturns.mpr (by decide)
  exact ⟨fuel, reads, hret, (hperiods fuel reads hret).2⟩

end Blastit.Fw.FrameTimer
