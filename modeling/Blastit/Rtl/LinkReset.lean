import Blastit.Rtl.Loopback
import Blastit.Rtl.RxResync

/-!
A `uart` that is reset in the middle of a conversation.

While it is in reset its line is high. If that lasts for the ticks of a frame, the receiver at
the other end comes to rest, whatever it was told before; so all that is written after the reset
is received, as between two instances that have been reset together.
-/

namespace Blastit.Rtl

open Blastit.Lib.Clocked Blastit.Lib.Ticks Blastit.Rtl.UartFrame
open Blastit.Rtl.Uart

/-- The near end is in reset for `hold` clocks from clock `start` on; the line was anything before,
and is read by the far end, with a baud counter at any phase. -/
structure LinkReset (R W D : ℕ) where
  c : Settings
  dvsr : BitVec D
  noise : ℕ → Bool
  start : ℕ
  hold : ℕ
  before : State R W D
  inNear : ℕ → In
  phaseFar : ModMCounter.State D

namespace LinkReset

variable {R W D : ℕ} (K : LinkReset R W D)

/-- The clock on which the near end runs again. -/
def release : ℕ := K.start + K.hold

/-- The near end, `t` clocks after it has been released. -/
def near (t : ℕ) : State R W D := run K.c K.dvsr ModMCounter.reset K.before K.inNear t

def written (t : ℕ) : List (BitVec 8) := Uart.written K.inNear t

def line (t : ℕ) : Bool :=
  if t < K.start then K.noise t
  else if t < K.release then tx (reset K.before)
  else tx (K.near (t - K.release))

/-- The baud counter of the far end. -/
def baud (t : ℕ) : ModMCounter.State D := exec ModMCounter.next K.phaseFar (fun _ => K.dvsr) t

def inFar (t : ℕ) : UartRx.In := ⟨K.line t, ModMCounter.maxTick (K.baud t)⟩

/-- The receiver of the far end. -/
def far (t : ℕ) : UartRx.State := exec (UartRx.next K.c) UartRx.reset K.inFar t

/-- The bytes that come out of it on the `n` clocks from clock `a` on. -/
def received (a n : ℕ) : List (BitVec 8) :=
  collect (fun u => UartRx.delivers K.c (K.far (a + u)) (K.inFar (a + u))) n

/-- The two ends from the release on, as if the far one had been reset too. -/
def after : Loopback R W D where
  c := K.c
  dvsr := K.dvsr
  phaseA := ModMCounter.reset
  phaseB := K.baud K.release
  beforeA := K.before
  beforeB := K.before
  inA := K.inNear
  inB := fun _ => ⟨false, false, true, 0⟩

/-- What holds of a conversation after a reset: at most one byte comes out during it, and after it
what is written, once and in order. -/
structure Resynchronised : Prop where
  rests : (K.far K.release).stateReg = .idle
  once : (K.received K.start K.hold).length ≤ 1
  only : ∀ t, K.received K.release t <+: (K.written t).map K.c.lowBits
  all : ∀ t, ∃ u, (K.written t).map K.c.lowBits <+: K.received K.release u

variable {K}

lemma line_hold {j : ℕ} (hj : j < K.hold) : K.line (K.start + j) = true := by
  rw [line, if_neg (by omega), if_pos (by unfold release; omega)]
  rfl

lemma line_after (t : ℕ) : K.line (K.release + t) = tx (K.after.runA t) := by
  have hlt : ¬ K.release + t < K.start := by
    unfold release
    omega
  rw [line, if_neg hlt, if_neg (by omega), Nat.add_sub_cancel_left]
  rfl

/-- What the receiver of the far end sees is what it would see had it been reset. -/
lemma inFar_after (t : ℕ) :
    K.inFar (K.release + t) = rxIn (K.after.runB t) (K.after.wired t) := by
  have hbaud : (K.after.runB t).baudGenUnit = K.baud (K.release + t) := by
    rw [baud, exec_add]
    exact run_baud _ _ _ t
  rw [inFar, line_after, rxIn, tick, hbaud]
  rfl

lemma train_baud (h : ModMCounter.Phase K.dvsr K.phaseFar) :
    Train (K.dvsr.toNat + 1) (fun t => ModMCounter.countdown K.dvsr (K.baud t))
      (fun t => ModMCounter.maxTick (K.baud t)) := ModMCounter.train h

/-- A hold of so many clocks has the ticks of a frame. -/
lemma ticks_hold (hv : K.c.Valid) (h : ModMCounter.Phase K.dvsr K.phaseFar)
    (hhold : rxTotal K.c * (K.dvsr.toNat + 1) < K.hold) :
    rxTotal K.c ≤ ticks (UartRx.tickOf K.inFar) K.start K.hold := by
  have hpos := rxTotal_pos hv
  have hle := ModMCounter.countdown_le (m := K.dvsr) (K.baud K.start)
  have hticks := (train_baud h).lt_ticks_iff K.start (rxTotal K.c - 1) K.hold
  have hsum : (rxTotal K.c - 1) * (K.dvsr.toNat + 1) + (K.dvsr.toNat + 1) =
      rxTotal K.c * (K.dvsr.toNat + 1) := by
    rw [← Nat.succ_mul]
    congr 1
    omega
  have hlt : rxTotal K.c - 1 < ticks (fun t => ModMCounter.maxTick (K.baud t)) K.start K.hold :=
    hticks.mpr (by omega)
  show rxTotal K.c ≤ ticks (fun t => ModMCounter.maxTick (K.baud t)) K.start K.hold
  omega

lemma length_received (a n : ℕ) :
    (K.received a n).length = UartRx.dones K.c UartRx.reset K.inFar a n := by
  induction n with
  | zero => simp [received, collect]
  | succ n ih =>
    have hdone : (UartRx.delivers K.c (K.far (a + n)) (K.inFar (a + n))).length =
        if UartRx.rxDoneTick K.c (K.far (a + n)) (K.inFar (a + n)) = true then 1 else 0 := by
      rw [UartRx.delivers]
      split <;> rfl
    rw [received, collect_succ, List.length_append, ← received, ih, hdone]
    exact (ticks_succ n).symm

/-- **A far end at rest receives what one that has been reset would receive.** -/
lemma received_after (hv : K.c.Valid) (hidle : (K.far K.release).stateReg = .idle) (t : ℕ) :
    UartRx.Alike K.c (K.far (K.release + t)) (K.after.runB t).uartRxUnit ∧
      K.received K.release t = K.after.delivered t := by
  induction t with
  | zero => exact ⟨.idle hidle rfl, rfl⟩
  | succ t ih =>
    obtain ⟨halike, hsame⟩ := ih
    obtain ⟨hdelivers, hnext⟩ := halike.next hv (K.inFar (K.release + t))
    refine ⟨?_, ?_⟩
    · have hfar : K.far (K.release + (t + 1)) =
          UartRx.next K.c (K.far (K.release + t)) (K.inFar (K.release + t)) := rfl
      rw [hfar]
      rw [inFar_after] at hnext ⊢
      exact hnext
    · have hlog : K.after.delivered (t + 1) = K.after.delivered t ++
          UartRx.delivers K.c (K.after.runB t).uartRxUnit
            (rxIn (K.after.runB t) (K.after.wired t)) := rfl
      rw [received, collect_succ, ← received, hsame, hdelivers, inFar_after, hlog]

/-- **A reset resynchronises the line**: if it is held for longer than the far end takes for a
frame, the far end is at rest when it is released, and receives from then on what is written. -/
theorem resynchronised (hf : K.after.Feeds) (hs : K.after.Samples)
    (h : ModMCounter.Phase K.dvsr K.phaseFar)
    (hhold : rxTotal K.c * (K.dvsr.toNat + 1) < K.hold) : K.Resynchronised := by
  have hv : K.c.Valid := hf.valid
  have hrest : UartRx.Behind K.c 0 UartRx.reset := .idle rfl
  obtain ⟨hidle, hdones⟩ :=
    UartRx.settles hv hrest (fun j hj => line_hold hj) (ticks_hold hv h hhold)
  have hsame := fun t => (received_after hv hidle t).2
  refine ⟨hidle, ?_, fun t => ?_, fun t => ?_⟩
  · rw [length_received]
    exact hdones
  · rw [hsame]
    exact Loopback.delivered_initial hf hs t
  · obtain ⟨u, hu⟩ := Loopback.exists_delivered hf hs t
    exact ⟨u, (hsame u) ▸ hu⟩

end LinkReset

end Blastit.Rtl
