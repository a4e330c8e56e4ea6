import Blastit.Rtl.RxFrame
import Blastit.Rtl.Uart

/-!
A whole frame on one `uart`: what the transmitter does from the clock it enters the start
bit, and what the receiver does from the clock it leaves the idle state, on any tick
schedule.
-/

namespace Blastit.Rtl.Uart

open Blastit.Lib.Clocked Blastit.Lib.Ring Blastit.Lib.Ticks Blastit.Rtl.UartFrame

variable {R W D : ℕ} {c : Settings} {dvsr : BitVec D} {φ : ModMCounter.State D}
  {s₀ : State R W D} {inp : ℕ → In}

/-! ### The transmitter -/

/-- At clock `t` the transmitter has spent `s` ticks in slot `k` of the frame of `byte`,
which stands at the head of the transmit buffer. -/
structure Sending (c : Settings) (dvsr : BitVec D) (φ : ModMCounter.State D) (s₀ : State R W D)
    (inp : ℕ → In) (byte : BitVec 8) (k s t : ℕ) : Prop where
  slot : UartTx.At c byte k s (run c dvsr φ s₀ inp t).uartTxUnit
  holds : Fifo.Holds (run c dvsr φ s₀ inp t).fifoTxUnit (txQueue c dvsr φ s₀ inp t)
  head : (txQueue c dvsr φ s₀ inp t).head? = some byte

variable {byte : BitVec 8} {k s t S : ℕ}

lemma Sending.ne_nil (h : Sending c dvsr φ s₀ inp byte k s t) :
    txQueue c dvsr φ s₀ inp t ≠ [] := by
  intro hq
  have := h.head
  rw [hq] at this
  cases this

lemma Sending.din (h : Sending c dvsr φ s₀ inp byte k s t) :
    (txIn (run c dvsr φ s₀ inp t)).din = byte := by
  obtain ⟨x, q, hq⟩ := List.exists_cons_of_ne_nil h.ne_nil
  have hh := h.holds
  have hd := h.head
  rw [hq] at hh hd
  rw [List.head?_cons, Option.some.injEq] at hd
  exact hh.rData_eq.trans hd

lemma Sending.line (h : Sending c dvsr φ s₀ inp byte k s t) (hk : k < c.bits + 2) :
    tx (run c dvsr φ s₀ inp (t + 1)) = c.wire byte k :=
  UartTx.next_txReg h.slot hk h.din

lemma Sending.txDoneTick_iff (h : Sending c dvsr φ s₀ inp byte k s t) (hk : k < c.bits + 2) :
    txDoneTick c (run c dvsr φ s₀ inp t) = true ↔
      k = c.bits + 1 ∧ tickAt c dvsr φ s₀ inp t = true ∧ s + 1 = c.txDur k :=
  UartTx.txDoneTick_iff h.slot hk

lemma Sending.keep (h : Sending c dvsr φ s₀ inp byte k s t)
    (hroom : (txQueue c dvsr φ s₀ inp (t + 1)).length < 2 ^ W)
    (hd : txDoneTick c (run c dvsr φ s₀ inp t) = false) {k' s' : ℕ}
    (hs : UartTx.At c byte k' s' (run c dvsr φ s₀ inp (t + 1)).uartTxUnit) :
    Sending c dvsr φ s₀ inp byte k' s' (t + 1) := by
  refine ⟨hs, holds_tx_succ h.holds (fun hp => ?_) hroom, ?_⟩
  · rw [hd] at hp; cases hp
  · have hq : txQueue c dvsr φ s₀ inp (t + 1) =
        qstep (txQueue c dvsr φ s₀ inp t) (txOps c dvsr φ s₀ inp t) := rfl
    have hpop : (txOps c dvsr φ s₀ inp t).pop = false := hd
    obtain ⟨x, q, hxq⟩ := List.exists_cons_of_ne_nil h.ne_nil
    have hhead := h.head
    rw [hxq, List.head?_cons] at hhead
    rw [hq, qstep, hpop, hxq]
    simpa using hhead

/-- **The transmitter goes through the slots of the frame**, its byte staying at the head
of the buffer. -/
theorem sending_run (hv : c.Valid) (hroom : ∀ t, (txQueue c dvsr φ s₀ inp t).length < 2 ^ W)
    (h : Sending c dvsr φ s₀ inp byte 0 0 S) :
    ∀ j k s, k < c.bits + 2 → s < c.txDur k →
      ticks (tickAt c dvsr φ s₀ inp) S j = bound c.txDur k + s →
      Sending c dvsr φ s₀ inp byte k s (S + j) := by
  have hd := hv.dbit_toNat
  refine slots_run (f := fun t : ℕ => t) (I := Sending c dvsr φ s₀ inp byte)
    (fun k _ => hv.txDur_pos k) h fun j k s hk hs _ hS => ?_
  have hdone := hS.txDoneTick_iff hk
  have hnotdone : ¬ (k = c.bits + 1 ∧ tickAt c dvsr φ s₀ inp (S + j) = true ∧
      s + 1 = c.txDur k) → txDoneTick c (run c dvsr φ s₀ inp (S + j)) = false := by
    intro hn
    rw [← hdone] at hn
    simpa using hn
  split
  · next ht =>
    constructor
    · intro hlt
      exact hS.keep (hroom _) (hnotdone fun hc => by omega)
        (UartTx.next_tick hS.slot hk ht hlt)
    · intro he hk'
      exact hS.keep (hroom _) (hnotdone fun hc => by omega)
        (UartTx.next_slot (by omega) (by omega) hS.slot hk' ht he)
  · next ht =>
    have ht' : tickAt c dvsr φ s₀ inp (S + j) = false := by simpa using ht
    exact hS.keep (hroom _) (hnotdone fun hc => ht hc.2.1)
      (UartTx.next_no_tick hS.slot hk ht')

def txTotal (c : Settings) : ℕ := bound c.txDur (c.bits + 2)

def rxTotal (c : Settings) : ℕ := bound c.rxDur (c.bits + 2)

lemma sending_slot (hv : c.Valid) (hroom : ∀ t, (txQueue c dvsr φ s₀ inp t).length < 2 ^ W)
    (h : Sending c dvsr φ s₀ inp byte 0 0 S) {j : ℕ}
    (hj : ticks (tickAt c dvsr φ s₀ inp) S j < txTotal c) :
    ∃ k s, k < c.bits + 2 ∧ s < c.txDur k ∧
      ticks (tickAt c dvsr φ s₀ inp) S j = bound c.txDur k + s ∧
      Sending c dvsr φ s₀ inp byte k s (S + j) := by
  obtain ⟨k, s, hk, hs, hn⟩ := exists_slot c.txDur hj
  exact ⟨k, s, hk, hs, hn, sending_run hv hroom h j k s hk hs hn⟩

lemma txDoneTick_sending (hv : c.Valid)
    (hroom : ∀ t, (txQueue c dvsr φ s₀ inp t).length < 2 ^ W)
    (h : Sending c dvsr φ s₀ inp byte 0 0 S) {j : ℕ}
    (hj : ticks (tickAt c dvsr φ s₀ inp) S j < txTotal c) :
    txDoneTick c (run c dvsr φ s₀ inp (S + j)) = true ↔
      tickAt c dvsr φ s₀ inp (S + j) = true ∧
        ticks (tickAt c dvsr φ s₀ inp) S j + 1 = txTotal c := by
  obtain ⟨k, s, hk, hs, hn, hS⟩ := sending_slot hv hroom h hj
  rw [hS.txDoneTick_iff hk, hn, txTotal, last_slot_iff (hv.txDur_pos (c.bits + 1)) hk hs]
  exact and_left_comm

/-- **After the last tick of the frame** the transmitter is idle, the line high, and the
byte gone from the buffer. -/
theorem sending_end (hv : c.Valid) (hroom : ∀ t, (txQueue c dvsr φ s₀ inp t).length < 2 ^ W)
    (h : Sending c dvsr φ s₀ inp byte 0 0 S) {j : ℕ}
    (ht : tickAt c dvsr φ s₀ inp (S + j) = true)
    (hj : ticks (tickAt c dvsr φ s₀ inp) S j + 1 = txTotal c) :
    (run c dvsr φ s₀ inp (S + j + 1)).uartTxUnit.stateReg = .idle ∧
      tx (run c dvsr φ s₀ inp (S + j + 1)) = true ∧
      Fifo.Holds (run c dvsr φ s₀ inp (S + j + 1)).fifoTxUnit
        (txQueue c dvsr φ s₀ inp (S + j + 1)) := by
  obtain ⟨k, s, hk, hs, hn, hS⟩ := sending_slot hv hroom h (Nat.lt_of_succ_le hj.le)
  obtain ⟨hkl, -, he⟩ :=
    (hS.txDoneTick_iff hk).mp ((txDoneTick_sending hv hroom h (by omega)).mpr ⟨ht, hj⟩)
  refine ⟨UartTx.next_last hS.slot hkl ht he, ?_, ?_⟩
  · rw [hS.line hk, hkl]
    have := c.dbit_le_bits
    rw [Settings.wire, if_neg (by omega), if_neg (by omega), if_neg (by omega)]
  · exact holds_tx_succ hS.holds (fun _ => hS.ne_nil) (hroom _)

/-- The clocks from clock `S` to the last tick of the frame. -/
def sentAt (c : Settings) (dvsr : BitVec D) (φ : ModMCounter.State D) (s₀ : State R W D)
    (inp : ℕ → In) (S : ℕ) : ℕ :=
  lastTick (dvsr.toNat + 1) (fun t => countdown dvsr (run c dvsr φ s₀ inp t)) (txTotal c) S

lemma txTotal_pos (hv : c.Valid) : 0 < txTotal c := by
  have := hv.txDur_pos (c.bits + 1)
  rw [txTotal, bound_succ]
  omega

lemma ticks_of_le_sentAt (hv : c.Valid) (hφ : ModMCounter.Phase dvsr φ) {n : ℕ}
    (hn : n ≤ sentAt c dvsr φ s₀ inp S) : ticks (tickAt c dvsr φ s₀ inp) S n < txTotal c :=
  (run_train c s₀ inp hφ).ticks_lt (txTotal_pos hv) hn

section
variable (hv : c.Valid) (hφ : ModMCounter.Phase dvsr φ)
  (hroom : ∀ t, (txQueue c dvsr φ s₀ inp t).length < 2 ^ W)
  (h : Sending c dvsr φ s₀ inp byte 0 0 S)
include hv hφ hroom h

lemma txDoneTick_frame {n : ℕ} (hn : n ≤ sentAt c dvsr φ s₀ inp S) :
    txDoneTick c (run c dvsr φ s₀ inp (S + n)) = true ↔ n = sentAt c dvsr φ s₀ inp S := by
  rw [txDoneTick_sending hv hroom h (ticks_of_le_sentAt hv hφ hn)]
  exact (run_train c s₀ inp hφ).lastTick_iff (txTotal_pos hv)

lemma sent_frame {n : ℕ} (hn : n ≤ sentAt c dvsr φ s₀ inp S + 1) :
    sent c dvsr φ s₀ inp (S + n) =
      sent c dvsr φ s₀ inp S ++ if sentAt c dvsr φ s₀ inp S < n then [byte] else [] := by
  rw [sent, collect_add]
  congr 1
  refine collect_once fun u hu => ?_
  have hdone := txDoneTick_frame hv hφ hroom h (show u ≤ _ by omega)
  unfold popped
  by_cases he : u = sentAt c dvsr φ s₀ inp S
  · obtain ⟨k, s, -, -, -, hS⟩ :=
      sending_slot hv hroom h (ticks_of_le_sentAt hv hφ he.le)
    rw [if_pos (show (txOps c dvsr φ s₀ inp (S + u)).pop = true from hdone.mpr he), if_pos he,
      hS.head]
    rfl
  · rw [if_neg (show ¬ (txOps c dvsr φ s₀ inp (S + u)).pop = true from mt hdone.mp he), if_neg he]

end

/-! ### The receiver -/

variable {x : ℕ → Bool}

/-- The receiver of a `uart` is one on the ticks of its baud counter. -/
lemma run_uartRx (t : ℕ) : (run c dvsr φ s₀ inp t).uartRxUnit =
    exec (UartRx.next c) UartRx.reset (fun u => rxIn (run c dvsr φ s₀ inp u) (inp u)) t :=
  exec_part (fun _ => rfl) t

/-- **The receiver goes through the slots of a frame**, sampling the line at the end of
each. -/
theorem receiving_run (hv : c.Valid) (h : UartRx.At c x 0 0 (run c dvsr φ s₀ inp S).uartRxUnit)
    (hx : ∀ j k, 1 ≤ k → k < c.bits + 2 → tickAt c dvsr φ s₀ inp (S + j) = true →
      ticks (tickAt c dvsr φ s₀ inp) S j + 1 = bound c.rxDur (k + 1) → (inp (S + j)).rx = x k) :
    ∀ j k s, k < c.bits + 2 → s < c.rxDur k →
      ticks (tickAt c dvsr φ s₀ inp) S j = bound c.rxDur k + s →
      UartRx.At c x k s (run c dvsr φ s₀ inp (S + j)).uartRxUnit := by
  simp only [run_uartRx] at h ⊢
  exact UartRx.frame_run hv h hx

section
variable {j : ℕ} (hv : c.Valid)
  (hrun : ∀ k s, k < c.bits + 2 → s < c.rxDur k →
    ticks (tickAt c dvsr φ s₀ inp) S j = bound c.rxDur k + s →
    UartRx.At c x k s (run c dvsr φ s₀ inp (S + j)).uartRxUnit)

include hv hrun

lemma rxDoneTick_receiving (hj : ticks (tickAt c dvsr φ s₀ inp) S j < rxTotal c) :
    rxDoneTick c (run c dvsr φ s₀ inp (S + j)) (inp (S + j)) = true ↔
      tickAt c dvsr φ s₀ inp (S + j) = true ∧
        ticks (tickAt c dvsr φ s₀ inp) S j + 1 = rxTotal c := by
  simp only [run_uartRx] at hrun
  rw [rxDoneTick, run_uartRx]
  exact UartRx.rxDoneTick_frame hv hrun hj

/-- **The last tick of the frame** samples the line into `e_frame` and leaves the receiver
idle. -/
theorem receiving_end (ht : tickAt c dvsr φ s₀ inp (S + j) = true)
    (hj : ticks (tickAt c dvsr φ s₀ inp) S j + 1 = rxTotal c) :
    (run c dvsr φ s₀ inp (S + j + 1)).uartRxUnit.stateReg = .idle ∧
      eFrame (run c dvsr φ s₀ inp (S + j + 1)) = !(inp (S + j)).rx := by
  simp only [run_uartRx] at hrun
  rw [eFrame, run_uartRx]
  exact UartRx.frame_end hv hrun ht hj

lemma receiving_dout (hj : ticks (tickAt c dvsr φ s₀ inp) S j + 1 = rxTotal c)
    (hx : ∀ i < c.dbit.toNat, x (i + 1) = byte.getLsbD i) :
    rxDataOut c (run c dvsr φ s₀ inp (S + j)) = c.lowBits byte := by
  simp only [run_uartRx] at hrun
  rw [rxDataOut, run_uartRx]
  exact UartRx.frame_dout hv hrun hj hx

end

/-- The clocks from clock `S` to the last tick of the frame received. -/
def doneAt (c : Settings) (dvsr : BitVec D) (φ : ModMCounter.State D) (s₀ : State R W D)
    (inp : ℕ → In) (S : ℕ) : ℕ :=
  lastTick (dvsr.toNat + 1) (fun t => countdown dvsr (run c dvsr φ s₀ inp t)) (rxTotal c) S

lemma rxTotal_pos (hv : c.Valid) : 0 < rxTotal c := by
  have := hv.rxDur_pos (c.bits + 1)
  rw [rxTotal, bound_succ]
  omega

lemma rxDoneTick_frame (hv : c.Valid) (hφ : ModMCounter.Phase dvsr φ)
    (hrun : ∀ j k s, k < c.bits + 2 → s < c.rxDur k →
      ticks (tickAt c dvsr φ s₀ inp) S j = bound c.rxDur k + s →
      UartRx.At c x k s (run c dvsr φ s₀ inp (S + j)).uartRxUnit) {n : ℕ}
    (hn : n ≤ doneAt c dvsr φ s₀ inp S) :
    rxDoneTick c (run c dvsr φ s₀ inp (S + n)) (inp (S + n)) = true ↔
      n = doneAt c dvsr φ s₀ inp S := by
  rw [rxDoneTick_receiving hv (hrun n) ((run_train c s₀ inp hφ).ticks_lt (rxTotal_pos hv) hn)]
  exact (run_train c s₀ inp hφ).lastTick_iff (rxTotal_pos hv)

end Blastit.Rtl.Uart
