import Blastit.Rtl.EdgeTrigger
import Blastit.Rtl.Fifo
import Blastit.Rtl.ModMCounter
import Blastit.Rtl.UartRx
import Blastit.Rtl.UartTx

/-!
`uart.v`: baud generator, edge triggers, the two buffers, transmitter and receiver.

The transmit buffer is emptied by `tx_done_tick`, so the byte on the line stays at its
head for the whole frame; the receive buffer is filled by `rx_done_tick`.
-/

namespace Blastit.Rtl.Uart

open Blastit.Lib.Clocked Blastit.Lib.Ring Blastit.Lib.Ticks Blastit.Rtl.UartFrame

structure State (R W D : ℕ) where
  baudGenUnit : ModMCounter.State D
  uartRxTrigger : EdgeTrigger.State
  fifoRxUnit : Fifo.State 8 R
  uartRxUnit : UartRx.State
  uartTxTrigger : EdgeTrigger.State
  fifoTxUnit : Fifo.State 8 W
  uartTxUnit : UartTx.State

structure In where
  rdUart : Bool
  wrUart : Bool
  rx : Bool
  wData : BitVec 8

variable {R W D : ℕ}

/-! ### Wires -/

def tick (s : State R W D) : Bool := ModMCounter.maxTick s.baudGenUnit

def rdUartTick (s : State R W D) (i : In) : Bool :=
  EdgeTrigger.tick s.uartRxTrigger true i.rdUart

def wrUartTick (s : State R W D) (i : In) : Bool :=
  EdgeTrigger.tick s.uartTxTrigger true i.wrUart

def rxEmpty (s : State R W D) : Bool := Fifo.empty s.fifoRxUnit

def rxFull (s : State R W D) : Bool := Fifo.full s.fifoRxUnit

def txEmpty (s : State R W D) : Bool := Fifo.empty s.fifoTxUnit

def txFull (s : State R W D) : Bool := Fifo.full s.fifoTxUnit

def rData (s : State R W D) : BitVec 8 := Fifo.rData s.fifoRxUnit

def tx (s : State R W D) : Bool := UartTx.tx s.uartTxUnit

def eFrame (s : State R W D) : Bool := UartRx.eFrame s.uartRxUnit

def eParity (s : State R W D) : Bool := UartRx.eParity s.uartRxUnit

def rxIn (s : State R W D) (i : In) : UartRx.In := ⟨i.rx, tick s⟩

def rxDoneTick (c : Settings) (s : State R W D) (i : In) : Bool :=
  UartRx.rxDoneTick c s.uartRxUnit (rxIn s i)

def rxDataOut (c : Settings) (s : State R W D) : BitVec 8 := UartRx.dout c s.uartRxUnit

def txIn (s : State R W D) : UartTx.In := ⟨!txEmpty s, tick s, Fifo.rData s.fifoTxUnit⟩

def txDoneTick (c : Settings) (s : State R W D) : Bool :=
  UartTx.txDoneTick c s.uartTxUnit (txIn s)

/-! ### Clock edges -/

def reset (s : State R W D) : State R W D where
  baudGenUnit := ModMCounter.reset
  uartRxTrigger := EdgeTrigger.reset
  fifoRxUnit := Fifo.reset s.fifoRxUnit
  uartRxUnit := UartRx.reset
  uartTxTrigger := EdgeTrigger.reset
  fifoTxUnit := Fifo.reset s.fifoTxUnit
  uartTxUnit := UartTx.reset

def blank : State R W D where
  baudGenUnit := ModMCounter.reset
  uartRxTrigger := EdgeTrigger.reset
  fifoRxUnit := Fifo.blank
  uartRxUnit := UartRx.reset
  uartTxTrigger := EdgeTrigger.reset
  fifoTxUnit := Fifo.blank
  uartTxUnit := UartTx.reset

def next (c : Settings) (dvsr : BitVec D) (s : State R W D) (i : In) : State R W D where
  baudGenUnit := ModMCounter.next s.baudGenUnit dvsr
  uartRxTrigger := EdgeTrigger.next true s.uartRxTrigger i.rdUart
  fifoRxUnit :=
    Fifo.next s.fifoRxUnit ⟨rdUartTick s i, rxDoneTick c s i, rxDataOut c s⟩
  uartRxUnit := UartRx.next c s.uartRxUnit (rxIn s i)
  uartTxTrigger := EdgeTrigger.next true s.uartTxTrigger i.wrUart
  fifoTxUnit := Fifo.next s.fifoTxUnit ⟨txDoneTick c s, wrUartTick s i, i.wData⟩
  uartTxUnit := UartTx.next c s.uartTxUnit (txIn s)

/-- The registers after reset, with the baud counter at any phase of its cycle. -/
def start (φ : ModMCounter.State D) (s : State R W D) : State R W D :=
  { reset s with baudGenUnit := φ }

/-! ### Runs -/

variable (c : Settings) (dvsr : BitVec D) (φ : ModMCounter.State D) (s₀ : State R W D)
  (inp : ℕ → In)

def run (t : ℕ) : State R W D := exec (next c dvsr) (start φ s₀) inp t

/-- The pulses on `wr_uart` push onto the transmit queue, `tx_done_tick` pops it. -/
def txOps (t : ℕ) : Op (BitVec 8) :=
  ⟨txDoneTick c (run c dvsr φ s₀ inp t),
    if EdgeTrigger.pulse (fun u => (inp u).wrUart) t then some (inp t).wData else none⟩

/-- The bytes written and not yet sent. -/
def txQueue (t : ℕ) : List (BitVec 8) := exec qstep [] (txOps c dvsr φ s₀ inp) t

/-- `rx_done_tick` pushes onto the receive queue, the pulses on `rd_uart` pop it. -/
def rxOps (t : ℕ) : Op (BitVec 8) :=
  ⟨EdgeTrigger.pulse (fun u => (inp u).rdUart) t,
    if rxDoneTick c (run c dvsr φ s₀ inp t) (inp t) then some (rxDataOut c (run c dvsr φ s₀ inp t))
    else none⟩

/-- The bytes received and not yet read. -/
def rxQueue (t : ℕ) : List (BitVec 8) := exec qstep [] (rxOps c dvsr φ s₀ inp) t

/-- The bytes written by the pulses on `wr_uart` before clock `t`. -/
def written : ℕ → List (BitVec 8) :=
  collect fun u => if EdgeTrigger.pulse (fun u => (inp u).wrUart) u then [(inp u).wData] else []

/-- The bytes whose frames were completed before clock `t`. -/
def sent : ℕ → List (BitVec 8) :=
  collect fun u => popped (txQueue c dvsr φ s₀ inp u) (txOps c dvsr φ s₀ inp u)

/-- The bytes `rx_done_tick` delivered before clock `t`. -/
def delivered : ℕ → List (BitVec 8) :=
  collect fun u =>
    if rxDoneTick c (run c dvsr φ s₀ inp u) (inp u) then [rxDataOut c (run c dvsr φ s₀ inp u)]
    else []

/-- The bytes the pulses on `rd_uart` read before clock `t`. -/
def read : ℕ → List (BitVec 8) :=
  collect fun u =>
    if EdgeTrigger.pulse (fun u => (inp u).rdUart) u then [rData (run c dvsr φ s₀ inp u)] else []

variable {c dvsr φ s₀ inp}

lemma run_baud (c : Settings) (s₀ : State R W D) (inp : ℕ → In) (t : ℕ) :
    (run c dvsr φ s₀ inp t).baudGenUnit = exec ModMCounter.next φ (fun _ => dvsr) t :=
  exec_part (fun _ => rfl) t

lemma run_txTrigger (t : ℕ) :
    (run c dvsr φ s₀ inp t).uartTxTrigger =
      exec (EdgeTrigger.next true) EdgeTrigger.reset (fun u => (inp u).wrUart) t :=
  exec_part (fun _ => rfl) t

lemma run_rxTrigger (t : ℕ) :
    (run c dvsr φ s₀ inp t).uartRxTrigger =
      exec (EdgeTrigger.next true) EdgeTrigger.reset (fun u => (inp u).rdUart) t :=
  exec_part (fun _ => rfl) t

lemma wrUartTick_run (t : ℕ) :
    wrUartTick (run c dvsr φ s₀ inp t) (inp t) =
      EdgeTrigger.pulse (fun u => (inp u).wrUart) t := by
  rw [wrUartTick, run_txTrigger]; exact EdgeTrigger.tick_exec _ t

lemma rdUartTick_run (t : ℕ) :
    rdUartTick (run c dvsr φ s₀ inp t) (inp t) =
      EdgeTrigger.pulse (fun u => (inp u).rdUart) t := by
  rw [rdUartTick, run_rxTrigger]; exact EdgeTrigger.tick_exec _ t

def countdown (dvsr : BitVec D) (s : State R W D) : ℕ := ModMCounter.countdown dvsr s.baudGenUnit

abbrev tickAt (c : Settings) (dvsr : BitVec D) (φ : ModMCounter.State D) (s₀ : State R W D)
    (inp : ℕ → In) (t : ℕ) : Bool := tick (run c dvsr φ s₀ inp t)

lemma run_train (c : Settings) (s₀ : State R W D) (inp : ℕ → In)
    (hφ : ModMCounter.Phase dvsr φ) :
    Train (dvsr.toNat + 1) (fun t => countdown dvsr (run c dvsr φ s₀ inp t))
      (tickAt c dvsr φ s₀ inp) := by
  have h := ModMCounter.train hφ
  simp only [← run_baud c s₀ inp] at h
  exact h

lemma lt_ticks_run (c : Settings) (s₀ : State R W D) (inp : ℕ → In)
    (hφ : ModMCounter.Phase dvsr φ) (a m j : ℕ) :
    m < ticks (tickAt c dvsr φ s₀ inp) a j ↔
      countdown dvsr (run c dvsr φ s₀ inp a) + m * (dvsr.toNat + 1) < j :=
  (run_train c s₀ inp hφ).lt_ticks_iff a m j

lemma countdown_lt (c : Settings) (s₀ : State R W D) (inp : ℕ → In)
    (hφ : ModMCounter.Phase dvsr φ) {t : ℕ} (ht : 0 < t) :
    countdown dvsr (run c dvsr φ s₀ inp t) < dvsr.toNat + 1 := by
  obtain ⟨u, rfl⟩ := Nat.exists_eq_succ_of_ne_zero (by omega : t ≠ 0)
  have hc := ModMCounter.countdown_le (m := dvsr) (run c dvsr φ s₀ inp u).baudGenUnit
  exact (run_train c s₀ inp hφ).lt_succ hc

/-! ### The buffers -/

lemma holds_tx_zero : Fifo.Holds (run c dvsr φ s₀ inp 0).fifoTxUnit (txQueue c dvsr φ s₀ inp 0) :=
  Fifo.holds_reset _

lemma holds_tx_succ {t : ℕ}
    (h : Fifo.Holds (run c dvsr φ s₀ inp t).fifoTxUnit (txQueue c dvsr φ s₀ inp t))
    (hpop : txDoneTick c (run c dvsr φ s₀ inp t) = true → txQueue c dvsr φ s₀ inp t ≠ [])
    (hroom : (txQueue c dvsr φ s₀ inp (t + 1)).length < 2 ^ W) :
    Fifo.Holds (run c dvsr φ s₀ inp (t + 1)).fifoTxUnit (txQueue c dvsr φ s₀ inp (t + 1)) := by
  have hop : txOps c dvsr φ s₀ inp t = Fifo.op ⟨txDoneTick c (run c dvsr φ s₀ inp t),
      wrUartTick (run c dvsr φ s₀ inp t) (inp t), (inp t).wData⟩ := by
    rw [wrUartTick_run]; rfl
  have hq : txQueue c dvsr φ s₀ inp (t + 1) =
      qstep (txQueue c dvsr φ s₀ inp t) (txOps c dvsr φ s₀ inp t) := rfl
  rw [hq, hop] at hroom ⊢
  exact h.next hpop hroom

/-- **The receive buffer holds the receive queue**, while it has room and is read only
when it is not empty. -/
lemma holds_rx (hroom : ∀ t, (rxQueue c dvsr φ s₀ inp t).length < 2 ^ R)
    (hrd : ∀ t, EdgeTrigger.pulse (fun u => (inp u).rdUart) t = true →
      rxEmpty (run c dvsr φ s₀ inp t) = false) (t : ℕ) :
    Fifo.Holds (run c dvsr φ s₀ inp t).fifoRxUnit (rxQueue c dvsr φ s₀ inp t) := by
  induction t with
  | zero => exact Fifo.holds_reset _
  | succ t ih =>
    have hop : rxOps c dvsr φ s₀ inp t = Fifo.op ⟨rdUartTick (run c dvsr φ s₀ inp t) (inp t),
        rxDoneTick c (run c dvsr φ s₀ inp t) (inp t), rxDataOut c (run c dvsr φ s₀ inp t)⟩ := by
      rw [rdUartTick_run]; rfl
    have hq : rxQueue c dvsr φ s₀ inp (t + 1) =
        qstep (rxQueue c dvsr φ s₀ inp t) (rxOps c dvsr φ s₀ inp t) := rfl
    have hr := hroom (t + 1)
    rw [hq, hop] at hr ⊢
    refine ih.next (fun hp hnil => ?_) hr
    have he := hrd t (by rw [← rdUartTick_run]; exact hp)
    rw [rxEmpty, ih.empty_iff.mpr hnil] at he
    cases he

lemma written_eq (t : ℕ) :
    written inp t = collect (fun u => (txOps c dvsr φ s₀ inp u).push.toList) t := by
  refine collect_congr fun u _ => ?_
  simp only [txOps]
  split <;> rfl

lemma delivered_eq (t : ℕ) :
    delivered c dvsr φ s₀ inp t = collect (fun u => (rxOps c dvsr φ s₀ inp u).push.toList) t := by
  refine collect_congr fun u _ => ?_
  simp only [rxOps]
  split <;> rfl

lemma length_txQueue_le (t : ℕ) : (txQueue c dvsr φ s₀ inp t).length ≤ (written inp t).length := by
  rw [written_eq (c := c)]
  exact length_le_pushed _ t

lemma length_rxQueue_le (t : ℕ) :
    (rxQueue c dvsr φ s₀ inp t).length ≤ (delivered c dvsr φ s₀ inp t).length := by
  rw [delivered_eq]
  exact length_le_pushed _ t

lemma read_append_rxQueue (hroom : ∀ t, (rxQueue c dvsr φ s₀ inp t).length < 2 ^ R)
    (hrd : ∀ t, EdgeTrigger.pulse (fun u => (inp u).rdUart) t = true →
      rxEmpty (run c dvsr φ s₀ inp t) = false) (t : ℕ) :
    read c dvsr φ s₀ inp t ++ rxQueue c dvsr φ s₀ inp t = delivered c dvsr φ s₀ inp t := by
  have hh := holds_rx hroom hrd
  have hne : ∀ u, (rxOps c dvsr φ s₀ inp u).pop = true → rxQueue c dvsr φ s₀ inp u ≠ [] := by
    intro u hp hnil
    have he := hrd u hp
    rw [rxEmpty, (hh u).empty_iff.mpr hnil] at he
    cases he
  have hread : read c dvsr φ s₀ inp t =
      collect (fun u => popped (rxQueue c dvsr φ s₀ inp u) (rxOps c dvsr φ s₀ inp u)) t := by
    refine collect_congr fun u _ => ?_
    rw [popped]
    by_cases hp : EdgeTrigger.pulse (fun u => (inp u).rdUart) u = true
    · rw [if_pos hp, if_pos (show (rxOps c dvsr φ s₀ inp u).pop = true from hp),
        (hh u).head? (hrd u hp)]
      rfl
    · rw [if_neg hp, if_neg (show ¬ (rxOps c dvsr φ s₀ inp u).pop = true from hp)]
  rw [hread, delivered_eq]
  exact conservation _ fun u _ => hne u

lemma sent_append_txQueue {t : ℕ}
    (hpop : ∀ u < t, txDoneTick c (run c dvsr φ s₀ inp u) = true → txQueue c dvsr φ s₀ inp u ≠ []) :
    sent c dvsr φ s₀ inp t ++ txQueue c dvsr φ s₀ inp t = written inp t := by
  rw [written_eq (c := c)]
  exact conservation _ hpop

/-! ### Two writes -/

/-- Two pulses on `wr_uart`, at clocks 0 and 2. -/
def twoWrites (byte byte' : BitVec 8) (t : ℕ) : In :=
  ⟨false, t == 0 || t == 2, true, if t == 0 then byte else byte'⟩

lemma length_written_twoWrites (byte byte' : BitVec 8) (t : ℕ) :
    (written (twoWrites byte byte') t).length ≤ 2 := by
  have hlate : written (twoWrites byte byte') (3 + t) =
      written (twoWrites byte byte') 3 := by
    rw [written, collect_add]
    refine (congrArg _ (collect_eq_nil fun u _ => ?_)).trans (List.append_nil _)
    refine if_neg ?_
    rw [show 3 + u = u + 2 + 1 by omega]
    simp [EdgeTrigger.pulse, twoWrites]
  have hle := (collect_initial
    (fun u => if EdgeTrigger.pulse (fun u => (twoWrites byte byte' u).wrUart) u then
      [(twoWrites byte byte' u).wData] else []) (Nat.le_add_left t 3)).length_le
  exact hle.trans (le_of_eq (congrArg List.length hlate))

end Blastit.Rtl.Uart
