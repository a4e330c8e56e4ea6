import Blastit.Rtl.Loopback

/-!
A stop bit of the length the receiver's half start bit leaves over.

The receiver then counts its stop slot from the middle of the last bit to the end of it,
so that it samples the stop bit on the very tick on which the transmitter enters it. With
the receiver's ticks one clock behind the transmitter's the sample still finds the last
bit of the frame, and a low one is a frame error.
-/

namespace Blastit.Rtl.Loopback

open Blastit.Lib.Clocked Blastit.Lib.Ring Blastit.Lib.Sizing Blastit.Lib.Ticks
open Blastit.Rtl.Uart Blastit.Rtl.UartFrame

variable {R W D : ℕ} {L : Loopback R W D} {byte : BitVec 8} {S t : ℕ}

/-- The half start bit and the stop bit make up one bit. -/
def StopsEarly (c : Settings) : Prop := c.half + c.sbTick.toNat = c.osTick.toNat

lemma rxTotal_early (h : StopsEarly L.c) : rxTotal L.c = (L.c.bits + 1) * L.c.osTick.toNat := by
  rw [rxTotal, Settings.bound_rxDur_last, Nat.succ_mul]
  unfold StopsEarly at h
  omega

lemma txTotal_eq : txTotal L.c = (L.c.bits + 1) * L.c.osTick.toNat + L.c.sbTick.toNat := by
  rw [txTotal, Settings.bound_txDur_last]

/-- The ticks of `B` are one clock behind those of `A`, seen from a frame that starts at
clock `S`. -/
def Behind (L : Loopback R W D) (S : ℕ) : Prop :=
  countdown L.dvsr (L.runA S) = countdown L.dvsr (L.runB (S + 2)) + 1

/-- The clock of the last sample, on the transmitter's side. -/
lemma one_add_doneAt (he : StopsEarly L.c) (hb : Behind L S) :
    1 + L.doneAt S = countdown L.dvsr (L.runA S) +
      ((L.c.bits + 1) * L.c.osTick.toNat - 1) * (L.dvsr.toNat + 1) := by
  unfold Behind at hb
  show 1 + (countdown L.dvsr (L.runB (S + 2)) + (rxTotal L.c - 1) * _) = _
  rw [rxTotal_early he, hb]
  omega

lemma bits_ticks_pos (hv : L.c.Valid) : 0 < (L.c.bits + 1) * L.c.osTick.toNat :=
  Nat.mul_pos (Nat.succ_pos _) hv.os

/-- **The last sample finds the last bit.** -/
lemma line_last (hf : L.Feeds) (he : StopsEarly L.c) (hb : Behind L S)
    (h : L.SendingA byte 0 0 S) : tx (L.runA (S + 2 + L.doneAt S)) = L.c.wire byte L.c.bits := by
  have hpos := bits_ticks_pos hf.valid
  have hos := hf.valid.os
  have hticks : L.ticksA S (1 + L.doneAt S) = (L.c.bits + 1) * L.c.osTick.toNat - 1 := by
    rw [one_add_doneAt he hb]
    exact (run_train L.c L.beforeA L.inA hf.phaseA).ticks_at S _
  refine line_of_window hf h (show L.c.bits < L.c.bits + 2 by omega) ?_ ?_
  · rw [hticks, Settings.bound_txDur (by omega), Nat.succ_mul]
    omega
  · rw [hticks, Settings.bound_txDur (le_refl _)]
    omega

lemma quiet_early (hf : L.Feeds) (he : StopsEarly L.c) (hb : Behind L S)
    (h : L.SendingA byte 0 0 S) : Quiet L S := by
  have hpos := bits_ticks_pos hf.valid
  have hone := one_add_doneAt he hb
  refine ⟨?_, fun j hlo hhi => ?_⟩
  · have hmul : ((L.c.bits + 1) * L.c.osTick.toNat - 1) * (L.dvsr.toNat + 1) ≤
        (txTotal L.c - 1) * (L.dvsr.toNat + 1) :=
      Nat.mul_le_mul_right _ (by rw [txTotal_eq]; omega)
    show _ < countdown L.dvsr (L.runA S) + (txTotal L.c - 1) * (L.dvsr.toNat + 1)
    omega
  · -- one clock later the transmitter is in the stop slot
    have hlt := (lt_ticks_run L.c L.beforeA L.inA hf.phaseA S
      ((L.c.bits + 1) * L.c.osTick.toNat - 1) (1 + j)).mpr (by
        show countdown L.dvsr (L.runA S) + _ < _
        omega)
    have hlow : bound L.c.txDur (L.c.bits + 1) ≤ L.ticksA S (1 + j) := by
      rw [Settings.bound_txDur (le_refl _)]
      show _ ≤ ticks _ _ _
      omega
    have hline := line_of_window hf h (show L.c.bits + 1 < L.c.bits + 2 by omega) hlow
      (ticks_of_le_sentAt hf.valid hf.phaseA hhi)
    have := L.c.dbit_le_bits
    rw [hline, Settings.wire, if_neg (by omega), if_neg (by omega), if_neg (by omega)]

lemma frame_error (hf : L.Feeds) (he : StopsEarly L.c) (hb : Behind L S) (h : Starts L byte S)
    (hlow : L.c.wire byte L.c.bits = false) :
    rxDoneTick L.c (L.runB (S + (2 + L.doneAt S))) (L.wired (S + (2 + L.doneAt S))) = true ∧
      eFrame (L.runB (S + (2 + L.doneAt S) + 1)) = true := by
  have hq := quiet_early hf he hb h.sending
  have hlt := hq.lt
  refine ⟨(h.rxDoneTick_iff hf hq (by omega)).mpr rfl, ?_⟩
  rw [← Nat.add_assoc, (h.last hf).2, line_last hf he hb h.sending, hlow, Bool.not_false]

/-! ### One byte through such a frame -/

/-- After the last byte both sides stay idle. -/
structure Resting (L : Loopback R W D) (t : ℕ) : Prop where
  inStep : InStep L t
  idleA : (L.runA t).uartTxUnit.stateReg = .idle
  empty : L.txQueue t = []

lemma Resting.next (h : Resting L t) (hf : L.Feeds)
    (hin : EdgeTrigger.pulse (fun u => (L.inA u).wrUart) t = false) :
    Resting L (t + 1) ∧ L.delivered (t + 1) = L.delivered t := by
  obtain ⟨hi, -, hdel⟩ := h.inStep.next_idle hf h.idleA
  obtain ⟨-, -, -, hno, -⟩ := idle_next hf h.idleA h.inStep.holds
  refine ⟨⟨hi, hno h.empty, ?_⟩, hdel⟩
  show qstep (L.txQueue t) _ = []
  rw [h.empty, qstep, show (txOps L.c L.dvsr L.phaseA L.beforeA L.inA t).push = none by
    simp [txOps, hin]]
  split <;> rfl

lemma pulse_oneWrite (hin : L.inA = oneWrite byte) (ht : 0 < t) :
    EdgeTrigger.pulse (fun u => (L.inA u).wrUart) t = false := by
  obtain ⟨u, rfl⟩ := Nat.exists_eq_succ_of_ne_zero (by omega : t ≠ 0)
  rw [hin]
  simp [EdgeTrigger.pulse, oneWrite]

lemma Resting.run (h : Resting L t) (hf : L.Feeds) (hin : L.inA = oneWrite byte) (ht : 0 < t)
    (n : ℕ) : Resting L (t + n) ∧ L.delivered (t + n) = L.delivered t := by
  induction n with
  | zero => exact ⟨h, rfl⟩
  | succ n ih =>
    obtain ⟨hr, hdel⟩ := ih.1.next hf (pulse_oneWrite hin (by omega))
    exact ⟨hr, hdel.trans ih.2⟩

lemma starts_oneWrite (hf : L.Feeds) (hin : L.inA = oneWrite byte) :
    InStep L 2 ∧ L.SendingA byte 0 0 2 ∧ L.sent 2 = [] ∧ L.delivered 2 = [] ∧
      ∀ u < 2, txDoneTick L.c (L.runA u) = false := by
  obtain ⟨h1, hs1, hd1⟩ := (inStep_zero (L := L)).next_idle hf rfl
  obtain ⟨-, -, hh1, hno, -⟩ := idle_next hf (t := 0) rfl inStep_zero.holds
  have hidle : ∀ u < 2, txDoneTick L.c (L.runA u) = false := by
    intro u hu
    rcases (by omega : u = 0 ∨ u = 1) with rfl | rfl
    · rfl
    · exact not_txDoneTick_idle (hno rfl)
  have hlog : ∀ t, 0 < t → t ≤ 2 → L.sent t ++ L.txQueue t = [byte] := by
    intro t h0 ht
    have hw : L.written t = [byte] := by
      rw [Loopback.written, hin, written_oneWrite, if_pos h0]
    rw [← hw]
    exact sent_append_txQueue fun u hu hd => by rw [hidle u (by omega)] at hd; cases hd
  obtain ⟨h2, hs2, hd2⟩ := h1.next_idle hf (hno rfl)
  obtain ⟨-, -, -, -, hyes⟩ := idle_next hf (hno rfl) hh1
  have hsent1 : L.sent 1 = [] := hs1
  have hsent2 : L.sent 2 = [] := hs2.trans hsent1
  have hq1 := hlog 1 (by omega) (by omega)
  have hq2 := hlog 2 (by omega) (by omega)
  rw [hsent1, List.nil_append] at hq1
  rw [hsent2, List.nil_append] at hq2
  obtain ⟨b, hA⟩ := hyes (by rw [hq1]; simp)
  have hb := hA.head
  rw [show Uart.txQueue _ _ _ _ _ _ = _ from hq2, List.head?_cons, Option.some.injEq] at hb
  exact ⟨h2, hb ▸ hA, hsent2, hd2.trans hd1, hidle⟩

lemma length_delivered_early (hf : L.Feeds) (he : StopsEarly L.c) (hb : Behind L 2)
    (hin : L.inA = oneWrite byte) (t : ℕ) : (L.delivered t).length ≤ 1 := by
  obtain ⟨h2, hA, hsent, hdel, hidle⟩ := starts_oneWrite hf hin
  have hq := quiet_early hf he hb hA
  obtain ⟨hE, hsE, hdE⟩ := h2.after_frame hf hA hq
  have hlog : L.sent (2 + (L.sentAt 2 + 2)) ++ L.txQueue (2 + (L.sentAt 2 + 2)) =
      L.written (2 + (L.sentAt 2 + 2)) := by
    refine sent_append_txQueue fun u hu hd => ?_
    rcases Nat.lt_or_ge u 2 with hlt | hge
    · rw [hidle u hlt] at hd
      cases hd
    · obtain ⟨n, rfl⟩ := Nat.exists_eq_add_of_le hge
      exact frame_pop hf hA (by omega) hd
  have hempty : L.txQueue (2 + (L.sentAt 2 + 2)) = [] := by
    rw [hsE, hsent, Loopback.written, hin, written_oneWrite, if_pos (by omega)] at hlog
    have hlog' : [byte] ++ L.txQueue (2 + (L.sentAt 2 + 2)) = [byte] ++ [] := by simpa using hlog
    exact List.append_cancel_left hlog'
  have hrest : Resting L (2 + (L.sentAt 2 + 2)) := by
    refine ⟨hE, ?_, hempty⟩
    rcases hE.modeA with hi | ⟨b, hS⟩
    · exact hi
    · exact absurd hempty hS.ne_nil
  rw [hdel, List.nil_append] at hdE
  rcases Nat.lt_or_ge t (2 + (L.sentAt 2 + 2)) with hlt | hge
  · have hpre : L.delivered t <+: L.delivered (2 + (L.sentAt 2 + 2)) := collect_initial _ hlt.le
    have := hpre.length_le
    rw [hdE, List.length_singleton] at this
    exact this
  · obtain ⟨n, rfl⟩ := Nat.exists_eq_add_of_le hge
    rw [(hrest.run hf hin (by omega) n).2, hdE, List.length_singleton]

/-! ### The failing run -/

/-- The tick of `B` one clock behind that of `A`, one byte written, none read. -/
def early (R W : ℕ) (c : Settings) (dvsr : BitVec D) (byte : BitVec 8) : Loopback R W D where
  c := c
  dvsr := dvsr
  phaseA := ⟨dvsr, false⟩
  phaseB := ⟨dvsr - 1, false⟩
  beforeA := Uart.blank
  beforeB := Uart.blank
  inA := oneWrite byte
  inB := fun _ => ⟨false, false, true, 0⟩

variable {c : Settings} {dvsr : BitVec D}

/-- A countdown two clocks before its tick stays one clock behind one that is one before. -/
lemma Train.behind {P : ℕ} {c c' : ℕ → ℕ} {tick tick' : ℕ → Bool} (h : Train P c tick)
    (h' : Train P c' tick') (hP : 2 ≤ P) (h0 : c 0 = 1) (h0' : c' 0 = 2) : c 2 = c' 4 + 1 := by
  have hc1 : c 1 = 0 := by rw [h.step 0, if_neg (by omega), h0]
  have hc2 : c 2 = P - 1 := by rw [h.step 1, if_pos hc1]
  have hd1 : c' 1 = 1 := by rw [h'.step 0, if_neg (by omega), h0']
  have hd2 : c' 2 = 0 := by rw [h'.step 1, if_neg (by omega), hd1]
  have hd3 : c' 3 = P - 1 := by rw [h'.step 2, if_pos hd2]
  have hd4 : c' 4 = P - 2 := by rw [h'.step 3, if_neg (by omega), hd3, Nat.sub_sub]
  omega

lemma feeds_early (hv : c.Valid) (hW : 1 ≤ W) (hd : 1 ≤ dvsr.toNat) :
    (early R W c dvsr byte).Feeds :=
  feeds_oneWrite hv ⟨le_refl _, fun h => by cases h⟩
    ⟨by show (dvsr - 1).toNat ≤ dvsr.toNat; rw [toNat_pred hd]; omega, fun h => by cases h⟩ hW rfl

lemma behind_early (hv : c.Valid) (hW : 1 ≤ W) (hd : 1 ≤ dvsr.toNat) :
    Behind (early R W c dvsr byte) 2 := by
  have hf : (early R W c dvsr byte).Feeds := feeds_early hv hW hd
  have hA0 : countdown dvsr ((early R W c dvsr byte).runA 0) = 1 := by
    show dvsr.toNat - dvsr.toNat + 1 = 1
    omega
  have hB0 : countdown dvsr ((early R W c dvsr byte).runB 0) = 2 := by
    show dvsr.toNat - (dvsr - 1).toNat + 1 = 2
    rw [toNat_pred hd]
    omega
  exact Train.behind (run_train c _ _ hf.phaseA) (run_train c _ _ hf.phaseB)
    (show 2 ≤ dvsr.toNat + 1 by omega) hA0 hB0

/-- **A stop bit that ends early loses the frame**: for any settings and any divisor from
one on there is a run within the buffers that ends its frame in a frame error. -/
theorem not_delivers_early (hv : c.Valid) (he : StopsEarly c) (hR : 1 ≤ R) (hW : 1 ≤ W)
    (hd : 1 ≤ dvsr.toNat) (hlow : c.wire byte c.bits = false) :
    (early R W c dvsr byte).Fits ∧ ¬ (early R W c dvsr byte).Delivers := by
  have hf : (early R W c dvsr byte).Feeds := feeds_early hv hW hd
  have hb : Behind (early R W c dvsr byte) 2 := behind_early hv hW hd
  refine ⟨hf.fits hR (fun _ => rfl) (length_delivered_early hf he hb rfl), fun hdel => ?_⟩
  obtain ⟨h2, hA, -⟩ := starts_oneWrite hf rfl
  obtain ⟨hdone, herr⟩ := frame_error hf he hb (h2.starts hA) hlow
  rw [hdel.frame _ hdone] at herr
  cases herr

/-- A byte whose last bit on the line is low: its parity bit, or its highest bit. -/
def lastLow (pbit : BitVec 2) : BitVec 8 := if 2 ≤ pbit.toNat then 1 else 0

lemma parity_lastLow :
    ∀ pbit : BitVec 2, parityCalculator (lastLow pbit) 7 pbit = false ∧
      parityCalculator (lastLow pbit) 8 pbit = false := by decide

lemma wire_lastLow (hv : c.Valid) : c.wire (lastLow c.pbit) c.bits = false := by
  have hd := hv.dbit_toNat
  have hle := c.dbit_le_bits
  by_cases hp : c.pbit = 0
  · rw [Settings.wire, if_neg (by omega), if_pos (Settings.bits_of_pbit_zero hp).le, hp]
    simp [lastLow]
  · rw [Settings.wire, if_neg (by omega), if_neg (by rw [Settings.bits_of_pbit_ne_zero hp]; omega),
      if_pos (le_refl _)]
    rcases hv.dbit with h | h
    · rw [h]
      exact (parity_lastLow _).1
    · rw [h]
      exact (parity_lastLow _).2

end Blastit.Rtl.Loopback
