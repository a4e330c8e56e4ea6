import Blastit.Lib.Mask
import Blastit.Rtl.TickCounter

/-!
The four timers: `tc_set_max`, `tc_reset`, `tc_get_ticks` and `tc_get_of` of
`controller_system.c`, over the timers as `blastit_main.v` wires them.

A call is the row of contents its writes give the registers; between two writes pass as
many clocks as the processor takes. The reset of a timer is asynchronous: while its bit is
set the timer reads as reset.
-/

namespace Blastit.Fw.Timers

open Blastit.Lib Blastit.Lib.Clocked Blastit.Rtl

inductive TcArray
  | tc1 | tc2 | tc3 | tc4
  deriving DecidableEq, Repr

def TcArray.idx : TcArray → ℕ
  | .tc1 => 0
  | .tc2 => 1
  | .tc3 => 2
  | .tc4 => 3

def tcResetMap (tc : TcArray) : BitVec 32 := BitVec.twoPow 32 tc.idx

def tcStatusOf : BitVec 32 := BitVec.twoPow 32 25

/-! ### The hardware -/

structure Regs where
  tcResetControl : BitVec 4
  tcM : TcArray → BitVec 32

abbrev Bank := TcArray → TimerCounter.State 32 24

/-- `{ tc4_reset, tc3_reset, tc2_reset, tc1_reset }`. -/
def Regs.resets (r : Regs) (tc : TcArray) : Bool := r.tcResetControl.getLsbD tc.idx

def next (ts : Bank) (r : Regs) : Bank := fun tc =>
  if r.resets tc then TimerCounter.reset else TimerCounter.next (ts tc) (r.tcM tc)

/-- `{ tc_of, tc_counter }`. -/
def tcStatus (ts : Bank) (r : Regs) (tc : TcArray) : BitVec 25 :=
  let s := if r.resets tc then TimerCounter.reset else ts tc
  BitVec.cons s.counterN.ofReg s.counterN.counterReg

/-! ### The calls -/

/-- A write to `TC_RESET_CONTROL_BASE`. -/
def Regs.write (r : Regs) (w : BitVec 32) : Regs := { r with tcResetControl := w.setWidth 4 }

/-- The calls that restart a timer. -/
inductive Restart
  | tcSetMax (m : BitVec 32)
  | tcReset
  deriving DecidableEq, Repr

/-- What the registers hold one after the other in a call, and what they hold at its end. -/
def Restart.writes (call : Restart) (tc : TcArray) (r : Regs) : List Regs × Regs :=
  let orig := r.tcResetControl.setWidth 32
  match call with
  | .tcSetMax m =>
    let held := r.write (orig ||| tcResetMap tc)
    let loaded := { held with tcM := Function.update held.tcM tc m }
    ([held, loaded], loaded.write (orig &&& ~~~tcResetMap tc))
  | .tcReset =>
    let held := r.write (orig ||| tcResetMap tc)
    ([held], held.write (orig &&& ~~~tcResetMap tc))

/-- The timers when the last write of a call releases the timer; the content number `i`
before it is held for `dwell i` clocks and one. -/
def Restart.released (call : Restart) (tc : TcArray) (dwell : ℕ → ℕ) (r : Regs) (ts : Bank) :
    Bank :=
  ((call.writes tc r).1.zipIdx.flatMap fun p => List.replicate (dwell p.2 + 1) p.1).foldl next ts

/-- A read of the status register of a timer. -/
def regr (status : BitVec 25) : BitVec 32 := status.setWidth 32

def tcGetTicks (status : TcArray → BitVec 25) (tc : TcArray) : BitVec 32 :=
  regr (status tc) &&& 0xffffff

def tcGetOf (status : TcArray → BitVec 25) (tc : TcArray) : Bool :=
  regr (status tc) &&& tcStatusOf ≠ 0

/-! ### What a call leaves -/

variable {tc : TcArray} {call : Restart} {r : Regs} {ts : Bank}

lemma resets_write_or (w : BitVec 32) : (r.write (w ||| tcResetMap tc)).resets tc = true := by
  cases tc <;> simp [Regs.write, Regs.resets, tcResetMap, TcArray.idx]

lemma resets_of_mem {r' : Regs} (h : r' ∈ (call.writes tc r).1) : r'.resets tc = true := by
  have hor : ∀ w, (r.write (w ||| tcResetMap tc)).resets tc = true := resets_write_or
  cases call with
  | tcSetMax m =>
    simp only [Restart.writes, List.mem_cons, List.not_mem_nil, or_false] at h
    rcases h with rfl | rfl
    · exact hor _
    · exact hor (r.tcResetControl.setWidth 32)
  | tcReset =>
    simp only [Restart.writes, List.mem_cons, List.not_mem_nil, or_false] at h
    rw [h]
    exact hor _

lemma foldl_next_reset {l : List Regs} (hne : l ≠ []) (h : ∀ r ∈ l, r.resets tc = true) :
    l.foldl next ts tc = TimerCounter.reset := by
  cases l using List.reverseRecOn with
  | nil => exact absurd rfl hne
  | append_singleton l r _ =>
    rw [List.foldl_append, List.foldl_cons, List.foldl_nil, next, if_pos (h r (by simp))]

/-- **A call restarts its timer**, whatever the timer held. -/
lemma released_eq (call : Restart) (tc : TcArray) (dwell : ℕ → ℕ) (r : Regs) (ts : Bank) :
    call.released tc dwell r ts tc = TimerCounter.reset := by
  refine foldl_next_reset ?_ fun r' hr' => ?_
  · cases call <;> simp [Restart.writes, List.zipIdx]
  · rw [List.mem_flatMap] at hr'
    obtain ⟨⟨r'', i⟩, hmem, hrep⟩ := hr'
    rw [List.mem_replicate] at hrep
    rw [hrep.2]
    exact resets_of_mem (List.fst_mem_of_mem_zipIdx hmem)

/-! ### What the status says -/

lemma tcGetTicks_cons {status : TcArray → BitVec 25} {b : Bool} {x : BitVec 24}
    (h : status tc = BitVec.cons b x) : (tcGetTicks status tc).toNat = x.toNat := by
  have hx := x.isLt
  have hmask : (0xffffff : BitVec 32).toNat = 2 ^ 24 - 1 := rfl
  rw [tcGetTicks, regr, h, BitVec.toNat_and, hmask, Nat.and_two_pow_sub_one_eq_mod,
    BitVec.toNat_setWidth, BitVec.toNat_cons']
  cases b <;> simp <;> omega

/-- The mask picks a bit above the status word. -/
lemma tcGetOf_eq_false (status : TcArray → BitVec 25) (tc : TcArray) :
    tcGetOf status tc = false := by
  have hbit : (regr (status tc)).getLsbD 25 = false := by
    simp [regr, BitVec.getLsbD_of_ge]
  have h : ¬ Mask.Has (regr (status tc)) 25 := by
    rw [Mask.has_iff _ (by decide), hbit]
    decide
  exact decide_eq_false h

/-- The status functions say that the timer has counted `n` ticks. -/
structure Reports (status : TcArray → BitVec 25) (tc : TcArray) (n : ℕ) : Prop where
  ticks : (tcGetTicks status tc).toNat = n % 2 ^ 24
  overflow : tcGetOf status tc = true ↔ 2 ^ 24 ≤ n

/-! ### Runs -/

/-- The clocks after a call has released timer `tc`: the call, how long it held the
registers, what it found, and what the registers hold from the release on. Whatever is
written to the other timers, this one keeps its maximum and is not reset again. -/
structure Run (tc : TcArray) where
  call : Restart
  dwell : ℕ → ℕ
  regs : Regs
  timers : Bank
  after : ℕ → Regs
  runs : ∀ t, (after t).resets tc = false
  keeps : ∀ t, (after t).tcM tc = (call.writes tc regs).2.tcM tc

namespace Run

variable (run : Run tc)

def m : BitVec 32 := (run.call.writes tc run.regs).2.tcM tc

/-- The timers, `t` clocks after the release. -/
def bankAt (t : ℕ) : Bank :=
  exec next (run.call.released tc run.dwell run.regs run.timers) run.after t

def ticks (t : ℕ) : ℕ := Lib.Ticks.ticks (fun u => TimerCounter.maxTick (run.bankAt u tc)) 0 t

def status (t : ℕ) : TcArray → BitVec 25 := tcStatus (run.bankAt t) (run.after t)

/-- The timer runs as if it were alone. -/
lemma bankAt_eq (t : ℕ) :
    run.bankAt t tc = exec TimerCounter.next TimerCounter.reset (fun _ => run.m) t := by
  induction t with
  | zero => exact released_eq _ _ _ _ _
  | succ t ih =>
    rw [exec_succ, ← ih, Run.bankAt, exec_succ, next, if_neg (by simp [run.runs t]), run.keeps t]
    rfl

lemma counts (t : ℕ) : TickCounter.Counts (run.ticks t) (run.bankAt t tc).counterN := by
  rw [bankAt_eq, Run.ticks]
  simp only [bankAt_eq]
  exact TimerCounter.counts_exec (by decide) t

lemma ticks_eq (t : ℕ) : run.ticks t = (t - 1) / (run.m.toNat + 1) := by
  rw [Run.ticks]
  simp only [bankAt_eq]
  exact TimerCounter.ticks_exec t

lemma status_eq (t : ℕ) :
    run.status t tc =
      BitVec.cons (run.bankAt t tc).counterN.ofReg (run.bankAt t tc).counterN.counterReg := by
  rw [Run.status, tcStatus, if_neg (by simp [run.runs t])]

lemma ticks_lt_iff (t : ℕ) : run.ticks t < 2 ^ 24 ↔ t ≤ 2 ^ 24 * (run.m.toNat + 1) := by
  rw [ticks_eq, Nat.div_lt_iff_lt_mul (Nat.succ_pos _)]
  have : 0 < 2 ^ 24 * (run.m.toNat + 1) := Nat.mul_pos (by decide) (Nat.succ_pos _)
  omega

lemma reports_iff (t : ℕ) : Reports (run.status t) tc (run.ticks t) ↔ run.ticks t < 2 ^ 24 := by
  have hticks : (tcGetTicks (run.status t) tc).toNat = run.ticks t % 2 ^ 24 := by
    rw [tcGetTicks_cons (run.status_eq t), (run.counts t).counter]
  constructor
  · rintro ⟨-, hof⟩
    rw [tcGetOf_eq_false] at hof
    by_contra hge
    exact absurd (hof.mpr (by omega)) (by decide)
  · intro hlt
    refine ⟨hticks, ?_⟩
    rw [tcGetOf_eq_false]
    simp only [Bool.false_eq_true, false_iff]
    omega

/-- **The status functions report the timer's ticks exactly until the counter wraps**, after
`2 ^ 24` ticks: for every timer, every maximum and every number of clocks. -/
theorem reports_iff_clocks (t : ℕ) :
    Reports (run.status t) tc (run.ticks t) ↔ t ≤ 2 ^ 24 * (run.m.toNat + 1) := by
  rw [reports_iff, ticks_lt_iff]

end Run

/-- `tc_set_max(Tc1, 0)` after power-up. -/
def everyClock : Run .tc1 where
  call := .tcSetMax 0
  dwell := fun _ => 0
  regs := ⟨0, fun _ => 0⟩
  timers := fun _ => TimerCounter.reset
  after := fun _ => ⟨0, fun _ => 0⟩
  runs := fun _ => rfl
  keeps := fun _ => rfl

/-- After `2 ^ 24 + 1` clocks with a tick on each but the first the counter has wrapped;
`tc_get_of` says that it has not. -/
theorem not_reports_everyClock : everyClock.ticks (2 ^ 24 + 1) = 2 ^ 24 ∧
    tcGetOf (everyClock.status (2 ^ 24 + 1)) .tc1 = false ∧
    ¬ Reports (everyClock.status (2 ^ 24 + 1)) .tc1 (everyClock.ticks (2 ^ 24 + 1)) := by
  have hm : everyClock.m = 0 := rfl
  have hticks : everyClock.ticks (2 ^ 24 + 1) = 2 ^ 24 := by
    rw [Run.ticks_eq, hm]
    rfl
  refine ⟨hticks, tcGetOf_eq_false _ _, ?_⟩
  rw [Run.reports_iff, hticks]
  omega

end Blastit.Fw.Timers
