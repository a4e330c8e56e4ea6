import Blastit.Rtl.Loopback
import Blastit.Rtl.TickCounter

/-!
`uart1_tx_tc` and `uart1_rx_tc` of `blastit_main.v`: the bytes a port has sent and received.

On the two ends of a link the counter of the sender and that of the receiver never part by more
than one byte. They are reset in one word with the `uart` they belong to.
-/

namespace Blastit.Rtl.Loopback

open Blastit.Lib.Clocked Blastit.Lib.Ring Blastit.Lib.Ticks Blastit.Rtl.UartFrame
open Blastit.Rtl.Uart

variable {R W D : ℕ} (L : Loopback R W D)

section
variable (N : ℕ)

/-- `uart1_tx_tc` of `A`, with a counter of `N` bits. -/
def txCounter (t : ℕ) : TickCounter.State N :=
  exec TickCounter.next TickCounter.reset (fun u => txDoneTick L.c (L.runA u)) t

/-- `uart1_rx_tc` of `B`. -/
def rxCounter (t : ℕ) : TickCounter.State N :=
  exec TickCounter.next TickCounter.reset (fun u => rxDoneTick L.c (L.runB u) (L.wired u)) t

end

/-- What the counters say of the bytes at clock `t`. -/
structure CountersAgree (N t : ℕ) : Prop where
  tx : TickCounter.Counts (L.sent t).length (L.txCounter N t)
  rx : TickCounter.Counts (L.delivered t).length (L.rxCounter N t)
  /-- the counts differ by the byte on the line at most -/
  behind : (L.sent t).length ≤ (L.delivered t).length + 1
  ahead : (L.delivered t).length ≤ (L.sent t).length + 1
  /-- one clock after the transmitter has come to rest they are the same, overflow and all -/
  rest : (L.runA t).uartTxUnit.stateReg = .idle → L.txCounter N (t + 1) = L.rxCounter N (t + 1)
  /-- and with nothing left to send they have counted everything that was written -/
  all : txEmpty (L.runA t) = true → (L.runA t).uartTxUnit.stateReg = .idle ∧
    TickCounter.Counts (L.written t).length (L.txCounter N (t + 1)) ∧
    TickCounter.Counts (L.written t).length (L.rxCounter N (t + 1))

variable {L} {N t S n : ℕ} {byte : BitVec 8}

/-! ### The counts -/

lemma length_sent (hf : L.Feeds) (hs : L.Samples) (t : ℕ) :
    (L.sent t).length = ticks (fun u => txDoneTick L.c (L.runA u)) 0 t := by
  induction t with
  | zero => simp [sent, Uart.sent]
  | succ t ih =>
    rw [ticks_succ, ← ih, Nat.zero_add, sent, Uart.sent, collect_succ, List.length_append]
    congr 1
    show (popped (L.txQueue t) ⟨txDoneTick L.c (L.runA t), _⟩).length = _
    unfold popped
    by_cases hd : txDoneTick L.c (L.runA t) = true
    · obtain ⟨x, q, hq⟩ := List.exists_cons_of_ne_nil (txDoneTick_ne_nil hf hs hd)
      rw [if_pos hd, if_pos hd, hq]
      rfl
    · rw [if_neg hd, if_neg hd]
      rfl

lemma length_delivered (L : Loopback R W D) (t : ℕ) :
    (L.delivered t).length = ticks (fun u => rxDoneTick L.c (L.runB u) (L.wired u)) 0 t := by
  induction t with
  | zero => simp [delivered, Uart.delivered]
  | succ t ih =>
    rw [ticks_succ, ← ih, Nat.zero_add, delivered, Uart.delivered, collect_succ, List.length_append]
    congr 1
    split <;> rfl

lemma counts_tx (hN : 1 ≤ N) (hf : L.Feeds) (hs : L.Samples) (t : ℕ) :
    TickCounter.Counts (L.sent t).length (L.txCounter N t) := by
  rw [length_sent hf hs]
  exact TickCounter.counts_exec hN _ t

lemma counts_rx (hN : 1 ≤ N) (L : Loopback R W D) (t : ℕ) :
    TickCounter.Counts (L.delivered t).length (L.rxCounter N t) := by
  rw [length_delivered]
  exact TickCounter.counts_exec hN _ t

/-- The count determines the counter, the overflow included. -/
lemma counts_unique {a b : TickCounter.State N} (ha : TickCounter.Counts n a)
    (hb : TickCounter.Counts n b) : a = b := by
  obtain ⟨c, o⟩ := a
  obtain ⟨c', o'⟩ := b
  have hcounter : c = c' := BitVec.eq_of_toNat_eq (ha.counter.trans hb.counter.symm)
  have hoverflow : o = o' := Bool.eq_iff_iff.mpr (ha.overflow.trans hb.overflow.symm)
  rw [hcounter, hoverflow]

/-! ### Inside a frame -/

lemma InFrame.not_idle (hf : L.Feeds) (h : InFrame L byte S (S + n)) (hn : n ≤ L.sentAt S) :
    (L.runA (S + n)).uartTxUnit.stateReg ≠ .idle := by
  obtain ⟨k, s, hk, -, -, hslot⟩ := sending_slot hf.valid hf.txRoom' h.sending
    (ticks_of_le_sentAt hf.valid hf.phaseA hn)
  rw [hslot.slot.phase, Settings.slotPhase]
  split_ifs <;> decide

/-- **Inside a frame** each side has counted its byte, or not yet. -/
lemma InFrame.counts (hf : L.Feeds) (hs : L.Samples) (h : InFrame L byte S (S + n)) :
    (L.sent (S + n)).length = (L.sent S).length + (if L.sentAt S < n then 1 else 0) ∧
      (L.delivered (S + n)).length = (L.sent S).length + (if 2 + L.doneAt S < n then 1 else 0) := by
  have hle := h.le
  have hbase : (L.delivered S).length = (L.sent S).length := by
    rw [h.agrees, List.length_map]
  constructor
  · have hsent := sent_frame hf.valid hf.phaseA hf.txRoom' h.sending
      (show n ≤ L.sentAt S + 1 by omega)
    rw [show L.sent (S + n) = _ from hsent, List.length_append]
    congr 1
    split <;> rfl
  · rw [h.starts.delivered_eq hf (hs.quiet hf h.starts) (by omega), List.length_append, hbase]
    split <;> rfl

/-! ### At every clock -/

lemma parted (hf : L.Feeds) (hs : L.Samples) (t : ℕ) :
    (L.sent t).length ≤ (L.delivered t).length + 1 ∧
      (L.delivered t).length ≤ (L.sent t).length + 1 := by
  rcases inStep_or_inFrame hf hs t with ⟨-, ha⟩ | ⟨byte, S, h⟩
  · rw [ha, List.length_map]
    omega
  · obtain ⟨n, rfl⟩ := Nat.exists_eq_add_of_le h.lt.le
    obtain ⟨hsent, hdel⟩ := h.counts hf hs
    rw [hsent, hdel]
    split_ifs <;> omega

lemma agrees_of_idle (hf : L.Feeds) (hs : L.Samples)
    (hidle : (L.runA t).uartTxUnit.stateReg = .idle) :
    Agrees L (t + 1) ∧ L.sent (t + 1) = L.sent t := by
  have hsent : L.sent (t + 1) = L.sent t := by
    show L.sent t ++ popped (L.txQueue t) ⟨txDoneTick L.c (L.runA t), _⟩ = _
    rw [popped, not_txDoneTick_idle hidle]
    exact List.append_nil _
  refine ⟨?_, hsent⟩
  rcases inStep_or_inFrame hf hs t with ⟨h, ha⟩ | ⟨byte, S, h⟩
  · obtain ⟨-, -, hdel⟩ := h.next_idle hf hidle
    rw [Agrees, hsent, hdel]
    exact ha
  · obtain ⟨n, rfl⟩ := Nat.exists_eq_add_of_le h.lt.le
    have hle := h.le
    have hend : n = L.sentAt S + 1 := by
      by_contra hne
      exact h.not_idle hf (by omega) hidle
    have hclock : S + n + 1 = S + (L.sentAt S + 2) := by omega
    rw [hclock]
    exact (frame_end hf hs h.inStep h.agrees h.sending).2.1

lemma sent_of_txEmpty (hf : L.Feeds) (hs : L.Samples) (he : txEmpty (L.runA t) = true) :
    (L.runA t).uartTxUnit.stateReg = .idle ∧ L.sent t = L.written t := by
  have hstate : L.txQueue t = [] ∧ (L.runA t).uartTxUnit.stateReg = .idle := by
    rcases inStep_or_inFrame hf hs t with ⟨h, -⟩ | ⟨byte, S, h⟩
    · have hq : L.txQueue t = [] := h.holds.empty_iff.mp he
      refine ⟨hq, h.modeA.resolve_right ?_⟩
      rintro ⟨byte, hA⟩
      exact hA.ne_nil hq
    · obtain ⟨n, rfl⟩ := Nat.exists_eq_add_of_le h.lt.le
      have hle := h.le
      rcases Nat.lt_or_ge (L.sentAt S) n with hlt | hge
      · have hlast := ((run_train L.c L.beforeA L.inA hf.phaseA).lastTick_iff
          (a := S) (txTotal_pos hf.valid)).mpr rfl
        obtain ⟨hidle, -, hholds⟩ := sending_end hf.valid hf.txRoom' h.sending hlast.1 hlast.2
        have hclock : S + n = S + L.sentAt S + 1 := by omega
        rw [hclock] at he ⊢
        exact ⟨hholds.empty_iff.mp he, hidle⟩
      · obtain ⟨k, s, -, -, -, hslot⟩ := sending_slot hf.valid hf.txRoom' h.sending
          (ticks_of_le_sentAt hf.valid hf.phaseA hge)
        exact absurd (hslot.holds.empty_iff.mp he) hslot.ne_nil
  refine ⟨hstate.2, ?_⟩
  have hall := sent_append hf hs t
  rw [hstate.1, List.append_nil] at hall
  exact hall

/-- **The two counters of a link agree**, at every clock, any phase of the baud counters and any
timing of the writes: they count what has been sent and what has arrived, modulo their range,
never part by more than the byte on the line, and are the same one clock after the transmitter
has come to rest; once the transmit buffer is empty both say how much was written. -/
theorem counters_agree (hN : 1 ≤ N) (hf : L.Feeds) (hs : L.Samples) (t : ℕ) :
    L.CountersAgree N t := by
  obtain ⟨hbehind, hahead⟩ := parted hf hs t
  refine ⟨counts_tx hN hf hs t, counts_rx hN L t, hbehind, hahead, fun hidle => ?_, fun he => ?_⟩
  · obtain ⟨ha, -⟩ := agrees_of_idle hf hs hidle
    have hcount := counts_rx hN L (t + 1)
    rw [ha, List.length_map] at hcount
    exact counts_unique (counts_tx hN hf hs (t + 1)) hcount
  · obtain ⟨hidle, hall⟩ := sent_of_txEmpty hf hs he
    obtain ⟨ha, hsent⟩ := agrees_of_idle hf hs hidle
    have htx := counts_tx hN hf hs (t + 1)
    have hrx := counts_rx hN L (t + 1)
    rw [ha, List.length_map, hsent, hall] at hrx
    rw [hsent, hall] at htx
    exact ⟨hidle, htx, hrx⟩

/-- Ten bits, as on the board. -/
theorem counters_agree_twoBytes :
    twoBytes.CountersAgree 10 200 ∧ (twoBytes.txCounter 10 200).counterReg = 2 :=
  ⟨counters_agree (by decide) feeds_twoBytes samples_twoBytes 200, by decide +kernel⟩

end Blastit.Rtl.Loopback
