import Blastit.Rtl.UartRun

/-!
Two `uart` instances on one clock, the `tx` of the first wired to the `rx` of the second.

Their baud counters run at the same rate and any phase. A frame is followed from the
clock the transmitter enters its start bit: every level the receiver samples is the one
the transmitter holds in the slot the receiver leaves, and the receiver is idle again
before the transmitter can start the next frame. So the two are in step again after every
frame, and the bytes delivered are the bytes sent.
-/

namespace Blastit.Rtl

open Blastit.Lib.Clocked Blastit.Lib.Ring Blastit.Lib.Ticks Blastit.Rtl.UartFrame
open Blastit.Rtl.Uart

/-- The two instances `A` and `B`: their settings, the phases of their baud counters, what
was in their buffers before reset, and the inputs besides the wire. -/
structure Loopback (R W D : ℕ) where
  c : Settings
  dvsr : BitVec D
  phaseA : ModMCounter.State D
  phaseB : ModMCounter.State D
  beforeA : State R W D
  beforeB : State R W D
  inA : ℕ → In
  inB : ℕ → In

namespace Loopback

variable {R W D : ℕ} (L : Loopback R W D)

abbrev runA (t : ℕ) : State R W D := run L.c L.dvsr L.phaseA L.beforeA L.inA t

/-- The inputs of `B`, its `rx` wired to the `tx` of `A`. -/
def wired (t : ℕ) : In := { L.inB t with rx := tx (L.runA t) }

abbrev runB (t : ℕ) : State R W D := run L.c L.dvsr L.phaseB L.beforeB L.wired t

abbrev written (t : ℕ) : List (BitVec 8) := Uart.written L.inA t

/-- The bytes whose frames `A` has completed. -/
abbrev sent (t : ℕ) : List (BitVec 8) := Uart.sent L.c L.dvsr L.phaseA L.beforeA L.inA t

/-- The bytes `B` has delivered, one for each `rx_done_tick`. -/
abbrev delivered (t : ℕ) : List (BitVec 8) :=
  Uart.delivered L.c L.dvsr L.phaseB L.beforeB L.wired t

/-- The bytes read from `B`. -/
abbrev read (t : ℕ) : List (BitVec 8) := Uart.read L.c L.dvsr L.phaseB L.beforeB L.wired t

abbrev txQueue (t : ℕ) : List (BitVec 8) := Uart.txQueue L.c L.dvsr L.phaseA L.beforeA L.inA t

abbrev rxQueue (t : ℕ) : List (BitVec 8) :=
  Uart.rxQueue L.c L.dvsr L.phaseB L.beforeB L.wired t

/-- Baud counters at any phase, and a transmit buffer that never holds more than it can. -/
structure Feeds : Prop where
  valid : L.c.Valid
  phaseA : ModMCounter.Phase L.dvsr L.phaseA
  phaseB : ModMCounter.Phase L.dvsr L.phaseB
  txRoom : ∀ t, (L.txQueue t).length ≤ 2 ^ W - 1

/-- Also a receive buffer that never holds more than it can, and is read only while there is
something to read. -/
structure Fits : Prop extends Feeds L where
  rxRoom : ∀ t, (L.rxQueue t).length ≤ 2 ^ R - 1
  rdReady : ∀ t, EdgeTrigger.pulse (fun u => (L.inB u).rdUart) t = true →
    rxEmpty (L.runB t) = false

/-- The receiver samples every slot inside the slot the transmitter is in. -/
structure Samples : Prop where
  os : 2 ≤ L.c.osTick.toNat
  sb : L.c.osTick.toNat ≤ L.c.sbTick.toNat

lemma samples_iff :
    L.Samples ↔ 2 ≤ L.c.osTick.toNat ∧ L.c.osTick.toNat ≤ L.c.sbTick.toNat :=
  ⟨fun h => ⟨h.os, h.sb⟩, fun h => ⟨h.1, h.2⟩⟩

/-- The transmission as the ports show it. -/
structure Delivers : Prop where
  /-- nothing is delivered that was not written, and nothing twice -/
  only : ∀ t, L.delivered t <+: (L.written t).map L.c.lowBits
  /-- everything written is delivered -/
  all : ∀ t, ∃ u, (L.written t).map L.c.lowBits <+: L.delivered u
  /-- what is read is what is delivered, and nothing is left when the buffer is empty -/
  read : ∀ t, L.read t <+: L.delivered t ∧ (rxEmpty (L.runB t) = true → L.read t = L.delivered t)
  frame : ∀ t, rxDoneTick L.c (L.runB t) (L.wired t) = true → eFrame (L.runB (t + 1)) = false

variable {L} {byte : BitVec 8} {S t : ℕ}

lemma room_lt {n m : ℕ} (h : n ≤ 2 ^ m - 1) : n < 2 ^ m := by
  have := Nat.two_pow_pos m
  omega

lemma Feeds.txRoom' (hf : L.Feeds) (t : ℕ) : (L.txQueue t).length < 2 ^ W := room_lt (hf.txRoom t)

lemma Fits.rxRoom' (hf : L.Fits) (t : ℕ) : (L.rxQueue t).length < 2 ^ R := room_lt (hf.rxRoom t)

/-! ### One frame -/

variable (L) in
/-- At clock `t` the transmitter has spent `s` ticks in slot `k` of the frame of `byte`. -/
abbrev SendingA (byte : BitVec 8) (k s t : ℕ) : Prop :=
  Sending L.c L.dvsr L.phaseA L.beforeA L.inA byte k s t

variable (L) in
abbrev ticksA (S n : ℕ) : ℕ := ticks (tickAt L.c L.dvsr L.phaseA L.beforeA L.inA) S n

variable (L) in
abbrev ticksB (S n : ℕ) : ℕ := ticks (tickAt L.c L.dvsr L.phaseB L.beforeB L.wired) S n

variable (L) in
/-- The clocks, from the second after the transmitter has entered the start bit at clock
`S`, until the receiver leaves slot `k`. -/
def sampleAt (S k : ℕ) : ℕ :=
  lastTick (L.dvsr.toNat + 1) (fun t => countdown L.dvsr (L.runB t)) (bound L.c.rxDur (k + 1))
    (S + 2)

variable (L) in
/-- The level of the line when the receiver leaves slot `k`. -/
def sampled (S k : ℕ) : Bool := tx (L.runA (S + 2 + L.sampleAt S k))

variable (L) in
/-- The clocks, from clock `S`, until `tx_done_tick`. -/
abbrev sentAt (S : ℕ) : ℕ := Uart.sentAt L.c L.dvsr L.phaseA L.beforeA L.inA S

variable (L) in
/-- The clocks, from clock `S + 2`, until `rx_done_tick`. -/
abbrev doneAt (S : ℕ) : ℕ := Uart.doneAt L.c L.dvsr L.phaseB L.beforeB L.wired (S + 2)

/-- The receiver is idle on a high line while the transmitter enters the start bit: two
clocks later it is in the start slot itself. -/
lemma falls (h : L.SendingA byte 0 0 S) (hline : tx (L.runA S) = true)
    (hidle : (L.runB S).uartRxUnit.stateReg = .idle) (x : ℕ → Bool) :
    (L.runB (S + 1)).uartRxUnit.stateReg = .idle ∧
      UartRx.At L.c x 0 0 (L.runB (S + 2)).uartRxUnit := by
  have h1 : (L.runB (S + 1)).uartRxUnit = (L.runB S).uartRxUnit :=
    UartRx.next_idle_high hidle hline
  have hidle1 : (L.runB (S + 1)).uartRxUnit.stateReg = .idle := by rw [h1]; exact hidle
  have hlow : tx (L.runA (S + 1)) = false := by
    rw [h.line (by omega)]; simp [Settings.wire]
  exact ⟨hidle1, UartRx.next_idle_low hidle1 hlow⟩

lemma receiving (hv : L.c.Valid) (hφB : ModMCounter.Phase L.dvsr L.phaseB)
    (h : UartRx.At L.c (L.sampled S) 0 0 (L.runB (S + 2)).uartRxUnit) :
    ∀ j k s, k < L.c.bits + 2 → s < L.c.rxDur k → L.ticksB (S + 2) j = bound L.c.rxDur k + s →
      UartRx.At L.c (L.sampled S) k s (L.runB (S + 2 + j)).uartRxUnit := by
  refine receiving_run hv h fun j k _ _ ht hn => ?_
  have hpos : 0 < bound L.c.rxDur (k + 1) := by omega
  have hj := ((run_train L.c L.beforeB L.wired hφB).lastTick_iff hpos).mp ⟨ht, hn⟩
  show tx (L.runA (S + 2 + j)) = _
  rw [sampled, sampleAt, ← hj]

/-- A sample taken while the transmitter is in slot `k` shows what that slot sends. -/
lemma line_of_window (hf : L.Feeds) (h : L.SendingA byte 0 0 S) {j k : ℕ} (hk : k < L.c.bits + 2)
    (hlo : bound L.c.txDur k ≤ L.ticksA S (1 + j))
    (hhi : L.ticksA S (1 + j) < bound L.c.txDur (k + 1)) :
    tx (L.runA (S + 2 + j)) = L.c.wire byte k := by
  rw [bound_succ] at hhi
  have hS := sending_run hf.valid hf.txRoom' h (1 + j) k
    (L.ticksA S (1 + j) - bound L.c.txDur k) hk (by omega) (Nat.add_sub_of_le hlo).symm
  have hl := hS.line hk
  rw [show S + (1 + j) + 1 = S + 2 + j by omega] at hl
  exact hl

/-- **Every sample falls into the slot the receiver leaves.** -/
lemma sample_window (hf : L.Feeds) (hs : L.Samples) (hS : 0 < S) {k : ℕ}
    (hk : k < L.c.bits + 2) :
    bound L.c.txDur k ≤ L.ticksA S (1 + L.sampleAt S k) ∧
      L.ticksA S (1 + L.sampleAt S k) < bound L.c.txDur (k + 1) := by
  obtain ⟨h1, h2⟩ := Settings.rx_between hs.os hs.sb hk
  have hA : countdown L.dvsr (L.runA S) < L.dvsr.toNat + 1 := countdown_lt _ _ _ hf.phaseA hS
  have hB : countdown L.dvsr (L.runB (S + 2)) < L.dvsr.toNat + 1 :=
    countdown_lt _ _ _ hf.phaseB (by omega)
  have hlo : bound L.c.txDur k ≤ bound L.c.rxDur (k + 1) - 1 := by omega
  have hhi : bound L.c.rxDur (k + 1) - 1 + 2 ≤ bound L.c.txDur (k + 1) := by omega
  exact (run_train L.c L.beforeA L.inA hf.phaseA).ticks_window hA hB hlo hhi

lemma sampled_eq (hf : L.Feeds) (hs : L.Samples) (h : L.SendingA byte 0 0 S) (hS : 0 < S)
    {k : ℕ} (hk : k < L.c.bits + 2) : L.sampled S k = L.c.wire byte k := by
  obtain ⟨hlo, hhi⟩ := sample_window hf hs hS hk
  exact line_of_window hf h hk hlo hhi

lemma doneAt_lt_sentAt (hf : L.Feeds) (hs : L.Samples) (hS : 0 < S) :
    L.doneAt S < L.sentAt S := by
  have hlt : L.ticksA S (1 + L.doneAt S) < txTotal L.c :=
    (sample_window hf hs hS (show L.c.bits + 1 < L.c.bits + 2 by omega)).2
  have hle := lt_ticks_run L.c L.beforeA L.inA hf.phaseA S (txTotal L.c - 1) (1 + L.doneAt S)
  change _ ↔ L.sentAt S < _ at hle
  unfold ticksA at hlt
  omega

/-- The stop bit keeps the line high from the last sample to the end of the frame. -/
lemma line_stop (hf : L.Feeds) (hs : L.Samples) (h : L.SendingA byte 0 0 S) (hS : 0 < S) {j : ℕ}
    (hlo : L.doneAt S ≤ j) (hhi : 1 + j ≤ L.sentAt S) : tx (L.runA (S + 2 + j)) = true := by
  have hk : L.c.bits + 1 < L.c.bits + 2 := by omega
  have hlow : L.ticksA S (1 + L.doneAt S) ≤ L.ticksA S (1 + j) := ticks_mono (by omega)
  have hline := line_of_window hf h hk (le_trans (sample_window hf hs hS hk).1 hlow)
    (ticks_of_le_sentAt hf.valid hf.phaseA hhi)
  have := L.c.dbit_le_bits
  rw [hline, Settings.wire, if_neg (by omega), if_neg (by omega), if_neg (by omega)]

/-! ### The frame on both sides -/

/-- Clock `S` starts a frame: `A` enters the start bit of `byte`, and `B` is idle. -/
structure Starts (L : Loopback R W D) (byte : BitVec 8) (S : ℕ) : Prop where
  sending : L.SendingA byte 0 0 S
  line : tx (L.runA S) = true
  idle : (L.runB S).uartRxUnit.stateReg = .idle
  pos : 0 < S

lemma Starts.receiving (h : Starts L byte S) (hf : L.Feeds) :
    ∀ j k s, k < L.c.bits + 2 → s < L.c.rxDur k → L.ticksB (S + 2) j = bound L.c.rxDur k + s →
      UartRx.At L.c (L.sampled S) k s (L.runB (S + 2 + j)).uartRxUnit :=
  Loopback.receiving hf.valid hf.phaseB (falls h.sending h.line h.idle _).2

/-- The receiver is done before the transmitter is, and finds the line high from its last
sample on. -/
structure Quiet (L : Loopback R W D) (S : ℕ) : Prop where
  lt : L.doneAt S < L.sentAt S
  line : ∀ j, L.doneAt S < j → 1 + j ≤ L.sentAt S → tx (L.runA (S + 2 + j)) = true

lemma Samples.quiet (hs : L.Samples) (hf : L.Feeds) (h : Starts L byte S) : Quiet L S where
  lt := doneAt_lt_sentAt hf hs h.pos
  line _ hlo hhi := line_stop hf hs h.sending h.pos hlo.le hhi

lemma Starts.last (h : Starts L byte S) (hf : L.Feeds) :
    (L.runB (S + 2 + L.doneAt S + 1)).uartRxUnit.stateReg = .idle ∧
      eFrame (L.runB (S + 2 + L.doneAt S + 1)) = !tx (L.runA (S + 2 + L.doneAt S)) := by
  have hlast := ((run_train L.c L.beforeB L.wired hf.phaseB).lastTick_iff
    (a := S + 2) (rxTotal_pos hf.valid)).mpr rfl
  exact receiving_end hf.valid (h.receiving hf _) hlast.1 hlast.2

lemma Starts.dout (h : Starts L byte S) (hf : L.Feeds) (hs : L.Samples) :
    rxDataOut L.c (L.runB (S + 2 + L.doneAt S)) = L.c.lowBits byte := by
  have hlast := ((run_train L.c L.beforeB L.wired hf.phaseB).lastTick_iff
    (a := S + 2) (rxTotal_pos hf.valid)).mpr rfl
  have hbits := L.c.dbit_le_bits
  refine receiving_dout hf.valid (h.receiving hf _) hlast.2 fun i hi => ?_
  rw [sampled_eq hf hs h.sending h.pos (by omega), Settings.wire, if_neg (by omega),
    if_pos (by omega), Nat.add_sub_cancel]

lemma Starts.idle_after (h : Starts L byte S) (hf : L.Feeds) (hq : Quiet L S) {j : ℕ}
    (hlo : L.doneAt S < j) (hhi : j ≤ L.sentAt S) :
    (L.runB (S + 2 + j)).uartRxUnit.stateReg = .idle := by
  induction j, hlo using Nat.le_induction with
  | base => exact (h.last hf).1
  | succ j hj ih =>
    have hnext : (L.runB (S + 2 + j + 1)).uartRxUnit = (L.runB (S + 2 + j)).uartRxUnit :=
      UartRx.next_idle_high (ih (by omega)) (hq.line j (by omega) (by omega))
    rw [← Nat.add_assoc, hnext]
    exact ih (by omega)

/-- **`rx_done_tick` is high once for the frame.** -/
lemma Starts.rxDoneTick_iff (h : Starts L byte S) (hf : L.Feeds) (hq : Quiet L S) {n : ℕ}
    (hn : n ≤ L.sentAt S + 1) :
    rxDoneTick L.c (L.runB (S + n)) (L.wired (S + n)) = true ↔ n = 2 + L.doneAt S := by
  have hidle : (L.runB (S + n)).uartRxUnit.stateReg = .idle →
      rxDoneTick L.c (L.runB (S + n)) (L.wired (S + n)) = false :=
    UartRx.not_rxDoneTick_idle
  rcases n with _ | _ | j
  · rw [hidle h.idle]; simp; omega
  · rw [hidle (falls h.sending h.line h.idle fun _ => false).1]; simp; omega
  · rw [show S + (j + 2) = S + 2 + j by omega] at hidle ⊢
    rcases Nat.lt_or_ge (L.doneAt S) j with hlt | hge
    · rw [hidle (h.idle_after hf hq hlt (by omega))]; simp; omega
    · rw [rxDoneTick_frame hf.valid hf.phaseB (h.receiving hf) hge]
      show j = L.doneAt S ↔ _
      omega

lemma Starts.delivered_eq (h : Starts L byte S) (hf : L.Feeds) (hq : Quiet L S) {n : ℕ}
    (hn : n ≤ L.sentAt S + 2) :
    L.delivered (S + n) = L.delivered S ++
      if 2 + L.doneAt S < n then [rxDataOut L.c (L.runB (S + 2 + L.doneAt S))] else [] := by
  rw [Loopback.delivered, Uart.delivered, collect_add]
  congr 1
  refine collect_once fun u hu => ?_
  have hdone := h.rxDoneTick_iff hf hq (show u ≤ _ by omega)
  by_cases he : u = 2 + L.doneAt S
  · rw [if_pos (hdone.mpr he), if_pos he, he, ← Nat.add_assoc]
  · rw [if_neg (mt hdone.mp he), if_neg he]

/-! ### Between frames -/

/-- The two sides are in step: the line is high, `B` is idle, and `A` is idle or just
starting a frame. -/
structure InStep (L : Loopback R W D) (t : ℕ) : Prop where
  line : tx (L.runA t) = true
  idleB : (L.runB t).uartRxUnit.stateReg = .idle
  holds : Fifo.Holds (L.runA t).fifoTxUnit (L.txQueue t)
  modeA : (L.runA t).uartTxUnit.stateReg = .idle ∨ ∃ byte, L.SendingA byte 0 0 t

lemma inStep_zero : InStep L 0 where
  line := rfl
  idleB := rfl
  holds := holds_tx_zero
  modeA := Or.inl rfl

lemma InStep.starts (h : InStep L S) (hA : L.SendingA byte 0 0 S) : Starts L byte S where
  sending := hA
  line := h.line
  idle := h.idleB
  pos := by
    rcases Nat.eq_zero_or_pos S with rfl | hS
    · have hph := hA.slot.phase
      cases hph
    · exact hS

lemma idle_next (hf : L.Feeds) {t : ℕ} (hidle : (L.runA t).uartTxUnit.stateReg = .idle)
    (hholds : Fifo.Holds (L.runA t).fifoTxUnit (L.txQueue t)) :
    tx (L.runA (t + 1)) = true ∧ L.sent (t + 1) = L.sent t ∧
      Fifo.Holds (L.runA (t + 1)).fifoTxUnit (L.txQueue (t + 1)) ∧
      (L.txQueue t = [] → (L.runA (t + 1)).uartTxUnit.stateReg = .idle) ∧
      (L.txQueue t ≠ [] → ∃ byte, L.SendingA byte 0 0 (t + 1)) := by
  obtain ⟨htx, hdone, hstart, hstay⟩ := UartTx.next_idle (c := L.c) (i := txIn (L.runA t)) hidle
  have hdone' : txDoneTick L.c (L.runA t) = false := hdone
  have hholds' : Fifo.Holds (L.runA (t + 1)).fifoTxUnit (L.txQueue (t + 1)) :=
    holds_tx_succ hholds (fun hp => by rw [hdone'] at hp; cases hp) (hf.txRoom' _)
  have hpop : (txOps L.c L.dvsr L.phaseA L.beforeA L.inA t).pop = false := hdone
  refine ⟨htx, ?_, hholds', fun hq => hstay ?_, fun hq => ?_⟩
  · show L.sent t ++ popped (L.txQueue t) _ = _
    rw [popped, hpop]
    exact List.append_nil _
  · have he : txEmpty (L.runA t) = true := hholds.empty_iff.mpr hq
    simp [txIn, he]
  · have hne : txEmpty (L.runA t) = false := by simpa [txEmpty] using mt hholds.empty_iff.mp hq
    have hhead := hholds.head? hne
    refine ⟨_, hstart (by simp [txIn, hne]), hholds', ?_⟩
    show (qstep (L.txQueue t) _).head? = _
    rw [qstep, hpop]
    obtain ⟨x, q, hxq⟩ := List.exists_cons_of_ne_nil hq
    rw [hxq] at hhead ⊢
    exact hhead

lemma InStep.next_idle (h : InStep L t) (hf : L.Feeds)
    (hidle : (L.runA t).uartTxUnit.stateReg = .idle) :
    InStep L (t + 1) ∧ L.sent (t + 1) = L.sent t ∧ L.delivered (t + 1) = L.delivered t := by
  obtain ⟨htx, hsent, hholds, hno, hyes⟩ := idle_next hf hidle h.holds
  have hB : (L.runB (t + 1)).uartRxUnit = (L.runB t).uartRxUnit :=
    UartRx.next_idle_high h.idleB h.line
  have hdone : rxDoneTick L.c (L.runB t) (L.wired t) = false := UartRx.not_rxDoneTick_idle h.idleB
  refine ⟨⟨htx, by rw [hB]; exact h.idleB, hholds, ?_⟩, hsent, ?_⟩
  · rcases Decidable.em (L.txQueue t = []) with hq | hq
    · exact Or.inl (hno hq)
    · exact Or.inr (hyes hq)
  · show L.delivered t ++ (if _ then _ else _) = _
    rw [if_neg (by rw [hdone]; decide), List.append_nil]

/-- **After a frame the two sides are in step again.** -/
lemma InStep.after_frame (h : InStep L S) (hf : L.Feeds) (hA : L.SendingA byte 0 0 S)
    (hq : Quiet L S) :
    InStep L (S + (L.sentAt S + 2)) ∧ L.sent (S + (L.sentAt S + 2)) = L.sent S ++ [byte] ∧
      L.delivered (S + (L.sentAt S + 2)) =
        L.delivered S ++ [rxDataOut L.c (L.runB (S + 2 + L.doneAt S))] := by
  have hst := h.starts hA
  have hlt := hq.lt
  have hlast := ((run_train L.c L.beforeA L.inA hf.phaseA).lastTick_iff
    (a := S) (txTotal_pos hf.valid)).mpr rfl
  obtain ⟨hidle, -, hholds⟩ := sending_end hf.valid hf.txRoom' hA hlast.1 hlast.2
  obtain ⟨htx, hsent, hholds', hno, hyes⟩ := idle_next hf hidle hholds
  have hsentE := sent_frame hf.valid hf.phaseA hf.txRoom' hA (le_refl _)
  rw [if_pos (Nat.lt_succ_self _)] at hsentE
  have hB := hst.idle_after hf hq hlt (le_refl _)
  rw [show S + 2 + L.sentAt S = S + (L.sentAt S + 2) by omega] at hB
  refine ⟨⟨htx, hB, hholds', ?_⟩, hsent.trans hsentE, ?_⟩
  · rcases Decidable.em (L.txQueue (S + L.sentAt S + 1) = []) with hn | hn
    · exact Or.inl (hno hn)
    · exact Or.inr (hyes hn)
  · rw [hst.delivered_eq hf hq (le_refl _), if_pos (by omega)]

/-- What has been sent has been delivered. -/
def Agrees (L : Loopback R W D) (t : ℕ) : Prop := L.delivered t = (L.sent t).map L.c.lowBits

/-- Clock `t` is inside the frame that started at clock `S`. -/
structure InFrame (L : Loopback R W D) (byte : BitVec 8) (S t : ℕ) : Prop where
  inStep : InStep L S
  agrees : Agrees L S
  sending : L.SendingA byte 0 0 S
  lt : S < t
  le : t ≤ S + L.sentAt S + 1

lemma InFrame.starts (h : InFrame L byte S t) : Starts L byte S := h.inStep.starts h.sending

lemma frame_end (hf : L.Feeds) (hs : L.Samples) (h : InStep L S) (ha : Agrees L S)
    (hA : L.SendingA byte 0 0 S) :
    InStep L (S + (L.sentAt S + 2)) ∧ Agrees L (S + (L.sentAt S + 2)) ∧
      L.sent (S + (L.sentAt S + 2)) = L.sent S ++ [byte] := by
  obtain ⟨hi, hsent, hdel⟩ := h.after_frame hf hA (hs.quiet hf (h.starts hA))
  refine ⟨hi, ?_, hsent⟩
  rw [Agrees, hdel, hsent, (h.starts hA).dout hf hs, ha, List.map_append]
  rfl

/-- **At every clock the two sides are in step and agree, or are inside a frame.** -/
theorem inStep_or_inFrame (hf : L.Feeds) (hs : L.Samples) (t : ℕ) :
    (InStep L t ∧ Agrees L t) ∨ ∃ byte S, InFrame L byte S t := by
  induction t with
  | zero => exact Or.inl ⟨inStep_zero, rfl⟩
  | succ t ih =>
    rcases ih with ⟨h, ha⟩ | ⟨byte, S, h⟩
    · rcases h.modeA with hidle | ⟨byte, hA⟩
      · obtain ⟨hi, hsent, hdel⟩ := h.next_idle hf hidle
        exact Or.inl ⟨hi, by rw [Agrees, hsent, hdel]; exact ha⟩
      · exact Or.inr ⟨byte, t, h, ha, hA, by omega, by omega⟩
    · rcases Nat.lt_or_ge t (S + L.sentAt S + 1) with hlt | hge
      · exact Or.inr ⟨byte, S, h.inStep, h.agrees, h.sending, by have := h.lt; omega, by omega⟩
      · left
        have he : t + 1 = S + (L.sentAt S + 2) := by have := h.le; omega
        obtain ⟨hi, ha, -⟩ := frame_end hf hs h.inStep h.agrees h.sending
        rw [he]
        exact ⟨hi, ha⟩

/-! ### What the ports show -/

lemma not_txDoneTick_idle (hidle : (L.runA t).uartTxUnit.stateReg = .idle) :
    txDoneTick L.c (L.runA t) = false :=
  (UartTx.next_idle (c := L.c) (i := txIn (L.runA t)) hidle).2.1

lemma frame_pop (hf : L.Feeds) (h : L.SendingA byte 0 0 S) {n : ℕ} (hn : n ≤ L.sentAt S + 1)
    (hd : txDoneTick L.c (L.runA (S + n)) = true) : L.txQueue (S + n) ≠ [] := by
  rcases Nat.lt_or_ge (L.sentAt S) n with hlt | hge
  · have hlast := ((run_train L.c L.beforeA L.inA hf.phaseA).lastTick_iff
      (a := S) (txTotal_pos hf.valid)).mpr rfl
    have hidle := (sending_end hf.valid hf.txRoom' h hlast.1 hlast.2).1
    rw [show n = L.sentAt S + 1 by omega] at hd
    rw [not_txDoneTick_idle (t := S + (L.sentAt S + 1)) hidle] at hd
    cases hd
  · obtain ⟨k, s, -, -, -, hS⟩ := sending_slot hf.valid hf.txRoom' h
      (ticks_of_le_sentAt hf.valid hf.phaseA hge)
    exact hS.ne_nil

lemma txDoneTick_ne_nil (hf : L.Feeds) (hs : L.Samples)
    (hd : txDoneTick L.c (L.runA t) = true) : L.txQueue t ≠ [] := by
  rcases inStep_or_inFrame hf hs t with ⟨h, -⟩ | ⟨byte, S, h⟩
  · rcases h.modeA with hi | ⟨byte, hA⟩
    · rw [not_txDoneTick_idle hi] at hd
      cases hd
    · exact hA.ne_nil
  · obtain ⟨n, rfl⟩ := Nat.exists_eq_add_of_le h.lt.le
    exact frame_pop hf h.sending (by have := h.le; omega) hd

/-- What is sent, then what is stored, is what was written. -/
lemma sent_append (hf : L.Feeds) (hs : L.Samples) (t : ℕ) :
    L.sent t ++ L.txQueue t = L.written t :=
  sent_append_txQueue fun _ _ => txDoneTick_ne_nil hf hs

lemma written_initial {u : ℕ} (h : t ≤ u) : L.written t <+: L.written u := collect_initial _ h

lemma delivered_initial (hf : L.Feeds) (hs : L.Samples) (t : ℕ) :
    L.delivered t <+: (L.written t).map L.c.lowBits := by
  rcases inStep_or_inFrame hf hs t with ⟨-, ha⟩ | ⟨byte, S, h⟩
  · rw [ha, ← sent_append hf hs t]
    exact (List.prefix_append _ _).map _
  · obtain ⟨n, rfl⟩ := Nat.exists_eq_add_of_le h.lt.le
    have hle := h.le
    -- the byte of the frame is the next one written
    have hw : L.sent S ++ [byte] <+: L.written S := by
      obtain ⟨x, q, hq⟩ := List.exists_cons_of_ne_nil h.sending.ne_nil
      have hx := h.sending.head
      rw [hq, List.head?_cons, Option.some.injEq] at hx
      rw [← sent_append hf hs S, Loopback.txQueue, hq, hx]
      exact ⟨q, by simp⟩
    have hmap := (hw.trans (written_initial (show S ≤ S + n by omega))).map L.c.lowBits
    rw [List.map_append, ← h.agrees] at hmap
    rw [h.starts.delivered_eq hf (hs.quiet hf h.starts) (by omega), h.starts.dout hf hs]
    split
    · exact hmap
    · rw [List.append_nil]
      exact (List.prefix_append _ _).trans hmap

lemma eFrame_low (hf : L.Feeds) (hs : L.Samples)
    (hd : rxDoneTick L.c (L.runB t) (L.wired t) = true) : eFrame (L.runB (t + 1)) = false := by
  rcases inStep_or_inFrame hf hs t with ⟨h, -⟩ | ⟨byte, S, h⟩
  · have : rxDoneTick L.c (L.runB t) (L.wired t) = false := UartRx.not_rxDoneTick_idle h.idleB
    rw [this] at hd
    cases hd
  · obtain ⟨n, rfl⟩ := Nat.exists_eq_add_of_le h.lt.le
    have hq := hs.quiet hf h.starts
    have hn := (h.starts.rxDoneTick_iff hf hq (by have := h.le; omega)).mp hd
    have hline := line_stop hf hs h.sending h.starts.pos (le_refl _) (by have := hq.lt; omega)
    rw [hn, ← Nat.add_assoc, (h.starts.last hf).2, hline, Bool.not_true]

/-! ### Every byte arrives -/

lemma InStep.sends (h : InStep L t) (hf : L.Feeds) (ha : Agrees L t) (hq : L.txQueue t ≠ []) :
    ∃ u byte, t ≤ u ∧ InStep L u ∧ Agrees L u ∧ L.SendingA byte 0 0 u ∧ L.sent u = L.sent t := by
  rcases h.modeA with hidle | ⟨byte, hA⟩
  · obtain ⟨-, -, -, -, hyes⟩ := idle_next hf hidle h.holds
    obtain ⟨byte, hA⟩ := hyes hq
    obtain ⟨hi, hsent, hdel⟩ := h.next_idle hf hidle
    exact ⟨t + 1, byte, by omega, hi, by rw [Agrees, hsent, hdel]; exact ha, hA, hsent⟩
  · exact ⟨t, byte, le_refl _, h, ha, hA, rfl⟩

lemma exists_inStep (hf : L.Feeds) (hs : L.Samples) (t : ℕ) :
    ∃ u, t ≤ u ∧ InStep L u ∧ Agrees L u := by
  rcases inStep_or_inFrame hf hs t with h | ⟨byte, S, h⟩
  · exact ⟨t, le_refl _, h⟩
  · obtain ⟨hi, ha, -⟩ := frame_end hf hs h.inStep h.agrees h.sending
    exact ⟨_, by have := h.le; omega, hi, ha⟩

lemma exists_sent (hf : L.Feeds) (hs : L.Samples) (t : ℕ) {n : ℕ}
    (hn : n ≤ (L.written t).length) :
    ∃ u, t ≤ u ∧ InStep L u ∧ Agrees L u ∧ n ≤ (L.sent u).length := by
  induction n with
  | zero =>
    obtain ⟨u, hu, h, ha⟩ := exists_inStep hf hs t
    exact ⟨u, hu, h, ha, Nat.zero_le _⟩
  | succ n ih =>
    obtain ⟨u, hu, h, ha, hlen⟩ := ih (by omega)
    rcases Nat.lt_or_ge n (L.sent u).length with hlt | hge
    · exact ⟨u, hu, h, ha, hlt⟩
    · have hq : L.txQueue u ≠ [] := fun hq => by
        have hc := sent_append hf hs u
        have hw := (written_initial (L := L) hu).length_le
        rw [hq, List.append_nil] at hc
        rw [← hc] at hw
        omega
      obtain ⟨v, byte, hv, h', ha', hA, hsent⟩ := h.sends hf ha hq
      obtain ⟨hi, hagree, hafter⟩ := frame_end hf hs h' ha' hA
      refine ⟨_, by omega, hi, hagree, ?_⟩
      rw [hafter, hsent, List.length_append, List.length_singleton]
      omega

lemma exists_delivered (hf : L.Feeds) (hs : L.Samples) (t : ℕ) :
    ∃ u, (L.written t).map L.c.lowBits <+: L.delivered u := by
  obtain ⟨u, hu, -, ha, hlen⟩ := exists_sent hf hs t (le_refl _)
  refine ⟨u, ?_⟩
  have hsent : L.sent u <+: L.written u := ⟨_, sent_append hf hs u⟩
  rw [ha]
  exact (List.prefix_of_prefix_length_le (written_initial hu) hsent hlen).map _

/-- What is read is what is delivered, however the line behaved. -/
lemma read_delivered (hf : L.Fits) (t : ℕ) :
    L.read t <+: L.delivered t ∧ (rxEmpty (L.runB t) = true → L.read t = L.delivered t) := by
  have hlog : L.read t ++ L.rxQueue t = L.delivered t := read_append_rxQueue hf.rxRoom' hf.rdReady t
  refine ⟨⟨_, hlog⟩, fun he => ?_⟩
  have hq : L.rxQueue t = [] := (holds_rx hf.rxRoom' hf.rdReady t).empty_iff.mp he
  rw [← hlog, hq, List.append_nil]

/-! ### Runs that carry one byte -/

def oneWrite (byte : BitVec 8) (t : ℕ) : In := ⟨false, t = 0, true, byte⟩

lemma written_oneWrite (byte : BitVec 8) (t : ℕ) :
    Uart.written (oneWrite byte) t = if 0 < t then [byte] else [] := by
  refine collect_once fun u _ => ?_
  cases u with
  | zero => simp [EdgeTrigger.pulse, oneWrite]
  | succ u => simp [EdgeTrigger.pulse, oneWrite]

lemma length_written_oneWrite (hin : L.inA = oneWrite byte) (t : ℕ) :
    (L.written t).length ≤ 1 := by
  rw [Loopback.written, hin, written_oneWrite]
  split <;> simp

lemma one_le_room {n : ℕ} (h : 1 ≤ n) : 1 ≤ 2 ^ n - 1 := by
  have := Nat.pow_le_pow_right (show 0 < 2 by omega) h
  omega

lemma Feeds.fits (hf : L.Feeds) (hR : 1 ≤ R) (hrd : ∀ t, (L.inB t).rdUart = false)
    (hdel : ∀ t, (L.delivered t).length ≤ 1) : L.Fits where
  toFeeds := hf
  rxRoom t := le_trans (length_rxQueue_le t) (le_trans (hdel t) (one_le_room hR))
  rdReady t hp := by
    have : EdgeTrigger.pulse (fun u => (L.inB u).rdUart) t = false := by
      cases t <;> simp [EdgeTrigger.pulse, hrd]
    rw [this] at hp
    cases hp

lemma feeds_oneWrite (hv : L.c.Valid) (hA : ModMCounter.Phase L.dvsr L.phaseA)
    (hB : ModMCounter.Phase L.dvsr L.phaseB) (hW : 1 ≤ W) (hin : L.inA = oneWrite byte) :
    L.Feeds where
  valid := hv
  phaseA := hA
  phaseB := hB
  txRoom t := le_trans (length_txQueue_le t) (le_trans (length_written_oneWrite hin t) (one_le_room hW))

/-! ### Main result -/

/-- **The loopback delivers every byte**, once and in order, at any phase of the baud
counters and any timing of the writes and reads, when a bit has two ticks at least and the
stop bit is not shorter than a bit. -/
theorem delivers_of_samples (hf : L.Fits) (hs : L.Samples) : L.Delivers where
  only := delivered_initial hf.toFeeds hs
  all := exists_delivered hf.toFeeds hs
  read := read_delivered hf
  frame _ := eFrame_low hf.toFeeds hs

/-! ### Two bytes -/

/-- Two bytes, the second right behind the first, with baud counters one clock apart; both are
read when the second has arrived. -/
def twoBytes : Loopback 2 2 8 where
  c := ⟨8, 1, 4, 4⟩
  dvsr := 1
  phaseA := ModMCounter.reset
  phaseB := ⟨1, false⟩
  beforeA := Uart.blank
  beforeB := Uart.blank
  inA := twoWrites 0x55 0xc3
  inB := fun t => ⟨t == 200 || t == 202, false, true, 0⟩

lemma samples_twoBytes : twoBytes.Samples := ⟨by decide, by decide⟩

lemma feeds_twoBytes : twoBytes.Feeds where
  valid := ⟨Or.inr rfl, by decide, by decide⟩
  phaseA := ⟨by decide, by decide⟩
  phaseB := ⟨by decide, by decide⟩
  txRoom t := (length_txQueue_le t).trans
    ((length_written_twoWrites 0x55 0xc3 t).trans (by decide))

lemma fits_twoBytes : twoBytes.Fits where
  toFeeds := feeds_twoBytes
  rxRoom t := by
    have hle := (delivered_initial feeds_twoBytes samples_twoBytes t).length_le
    rw [List.length_map] at hle
    exact (length_rxQueue_le t).trans
      (hle.trans ((length_written_twoWrites 0x55 0xc3 t).trans (by decide)))
  rdReady t hp := by
    have hclock : t = 200 ∨ t = 202 := by
      cases t with
      | zero => cases hp
      | succ t =>
        have hrd : (t + 1 == 200 || t + 1 == 202) = true := (Bool.and_eq_true_iff.mp hp).1
        simpa using hrd
    have hready : rxEmpty (twoBytes.runB 200) = false ∧ rxEmpty (twoBytes.runB 202) = false := by
      decide +kernel
    rcases hclock with rfl | rfl
    · exact hready.1
    · exact hready.2

theorem twoBytes_delivers :
    twoBytes.Delivers ∧ twoBytes.read 203 = [0x55, 0xc3] :=
  ⟨delivers_of_samples fits_twoBytes samples_twoBytes, by decide +kernel⟩

end Loopback

end Blastit.Rtl
