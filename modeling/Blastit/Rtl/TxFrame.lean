import Blastit.Rtl.UartTx

/-!
Whole frames on the transmitter, in a run from reset on any tick schedule.

Where the transmitter stands is settled by the ticks since it took the byte, and the line shows
it one clock later.
-/

namespace Blastit.Rtl.UartTx

open Blastit.Lib.Clocked Blastit.Lib.Ticks Blastit.Rtl.UartFrame

abbrev run (c : Settings) (ins : ℕ → In) (t : ℕ) : State := exec (next c) reset ins t

abbrev tickOf (ins : ℕ → In) (t : ℕ) : Bool := (ins t).sTick

/-- At clock `a` the byte is taken. -/
structure Accepts (c : Settings) (ins : ℕ → In) (a : ℕ) (byte : BitVec 8) : Prop where
  idle : (run c ins a).stateReg = .idle
  start : (ins a).txStart = true
  din : (ins a).din = byte

/-- From then on `din` holds the byte until `tx_done_tick`. -/
def Stable (c : Settings) (ins : ℕ → In) (a : ℕ) (byte : BitVec 8) : Prop :=
  ∀ t, a < t → (∀ u, a < u → u < t → txDoneTick c (run c ins u) (ins u) = false) →
    (ins t).din = byte

def total (c : Settings) : ℕ := (c.bits + 1) * c.osTick.toNat + c.sbTick.toNat

/-- The frame of a byte taken at clock `a`; `n` ticks after that the line shows the bit that
tick `n` belongs to. -/
structure Frames (c : Settings) (ins : ℕ → In) (a : ℕ) (byte : BitVec 8) : Prop where
  line : ∀ j n, ticks (tickOf ins) (a + 1) j = n → n < total c →
    tx (run c ins (a + 1 + j + 1)) = c.level byte (c.parityOf byte) (n / c.osTick.toNat)
  /-- `tx_done_tick` falls on the last tick -/
  done : ∀ j n, ticks (tickOf ins) (a + 1) j = n → n < total c →
    (txDoneTick c (run c ins (a + 1 + j)) (ins (a + 1 + j)) = true ↔
      tickOf ins (a + 1 + j) = true ∧ n + 1 = total c)
  /-- and after it the transmitter rests until the next byte is taken -/
  rest : ∀ j, tickOf ins (a + 1 + j) = true → ticks (tickOf ins) (a + 1) j + 1 = total c →
    ∀ t, a + 1 + j < t → (∀ u, a + 1 + j < u → u < t → (ins u).txStart = false) →
      (run c ins t).stateReg = .idle ∧ tx (run c ins t) = true ∧
        txDoneTick c (run c ins t) (ins t) = false
  /-- which it does if the ticks do not run out -/
  ends : (∀ n, ∃ j, n ≤ j ∧ tickOf ins (a + 1 + j) = true) →
    ∃ j, tickOf ins (a + 1 + j) = true ∧ ticks (tickOf ins) (a + 1) j + 1 = total c

variable {c : Settings} {ins : ℕ → In} {a j k s : ℕ} {byte : BitVec 8}

lemma total_eq (c : Settings) : total c = bound c.txDur (c.bits + 2) :=
  Settings.bound_txDur_last.symm

lemma div_osTick (hv : c.Valid) (hk : k < c.bits + 2) (hs : s < c.txDur k) :
    k = (bound c.txDur k + s) / c.osTick.toNat ∨
      c.bits < k ∧ c.bits < (bound c.txDur k + s) / c.osTick.toNat := by
  have hos := hv.os
  rw [Settings.bound_txDur (by omega)]
  rcases Nat.lt_or_ge c.bits k with hlt | hle
  · refine Or.inr ⟨hlt, (Nat.le_div_iff_mul_le hos).mpr ?_⟩
    exact (Nat.mul_le_mul_right _ hlt).trans (Nat.le_add_right _ _)
  · rw [Settings.txDur_of_le hle] at hs
    rw [Nat.mul_comm, Nat.mul_add_div hos, Nat.div_eq_of_lt hs]
    exact Or.inl (Nat.add_zero k).symm

lemma level_div (hv : c.Valid) (hk : k < c.bits + 2) (hs : s < c.txDur k) (parity : Bool) :
    c.level byte parity ((bound c.txDur k + s) / c.osTick.toNat) = c.level byte parity k := by
  rcases div_osTick hv hk hs with he | ⟨hlt, hlt'⟩
  · rw [← he]
  · rw [Settings.level_of_lt hlt, Settings.level_of_lt hlt']

namespace Accepts

/-- **The transmitter goes through the slots of the frame.** -/
theorem run (hv : c.Valid) (h : Accepts c ins a byte) (j k s : ℕ) (hk : k < c.bits + 2)
    (hs : s < c.txDur k) (hj : ticks (tickOf ins) (a + 1) j = bound c.txDur k + s) :
    At c byte k s (UartTx.run c ins (a + 1 + j)) := by
  have hd := hv.dbit_toNat
  have hstart : At c byte 0 0 (UartTx.run c ins (a + 1)) :=
    h.din ▸ (next_idle h.idle).2.2.1 h.start
  refine slots_run (f := UartTx.run c ins) (I := At c byte) (fun k _ => hv.txDur_pos k) hstart
    (fun j k s hk hs _ hS => ?_) j k s hk hs hj
  split
  · next ht =>
    exact ⟨fun hlt => next_tick hS hk ht hlt,
      fun he hk' => next_slot (by omega) (by omega) hS hk' ht he⟩
  · next ht => exact next_no_tick hS hk (by simpa using ht)

lemma done_iff (hv : c.Valid) (h : Accepts c ins a byte)
    (hj : ticks (tickOf ins) (a + 1) j < total c) :
    txDoneTick c (UartTx.run c ins (a + 1 + j)) (ins (a + 1 + j)) = true ↔
      tickOf ins (a + 1 + j) = true ∧ ticks (tickOf ins) (a + 1) j + 1 = total c := by
  rw [total_eq] at hj ⊢
  obtain ⟨k, s, hk, hs, hn⟩ := exists_slot c.txDur hj
  rw [txDoneTick_iff (h.run hv j k s hk hs hn) hk, hn,
    last_slot_iff (hv.txDur_pos (c.bits + 1)) hk hs]
  exact and_left_comm

lemma din_eq (hv : c.Valid) (h : Accepts c ins a byte) (hstable : Stable c ins a byte)
    (hj : ticks (tickOf ins) (a + 1) j < total c) : (ins (a + 1 + j)).din = byte := by
  refine hstable _ (by omega) fun u hau hu => ?_
  obtain ⟨i, rfl⟩ := Nat.exists_eq_add_of_le (show a + 1 ≤ u from hau)
  have hmono : ticks (tickOf ins) (a + 1) (i + 1) ≤ ticks (tickOf ins) (a + 1) j :=
    ticks_mono (by omega)
  rw [ticks_succ] at hmono
  rw [← Bool.not_eq_true, h.done_iff hv (by omega)]
  rintro ⟨ht, hlast⟩
  rw [if_pos ht] at hmono
  omega

lemma line (hv : c.Valid) (hp : c.pbit = 0 ∨ c.pbit = 1 ∨ c.pbit = 2) (h : Accepts c ins a byte)
    (hstable : Stable c ins a byte) (hj : ticks (tickOf ins) (a + 1) j < total c) :
    tx (UartTx.run c ins (a + 1 + j + 1)) =
      c.level byte (c.parityOf byte) (ticks (tickOf ins) (a + 1) j / c.osTick.toNat) := by
  have hslot := hj
  rw [total_eq] at hslot
  obtain ⟨k, s, hk, hs, he⟩ := exists_slot c.txDur hslot
  have hline := next_txReg (h.run hv j k s hk hs he) hk (h.din_eq hv hstable hj)
  rw [he, level_div hv hk hs, ← Settings.wire_eq hv.dbit hp]
  exact hline

lemma idle_after (hv : c.Valid) (h : Accepts c ins a byte) (ht : tickOf ins (a + 1 + j) = true)
    (hj : ticks (tickOf ins) (a + 1) j + 1 = total c) :
    (UartTx.run c ins (a + 1 + j + 1)).stateReg = .idle := by
  rw [total_eq, bound_succ _ (c.bits + 1)] at hj
  have hpos := hv.txDur_pos (c.bits + 1)
  have hS := h.run hv j (c.bits + 1) (c.txDur (c.bits + 1) - 1) (by omega) (by omega) (by omega)
  exact next_last hS rfl ht (by omega)

lemma rest {m t : ℕ} (hidle : (UartTx.run c ins m).stateReg = .idle)
    (htx : tx (UartTx.run c ins m) = true) (ht : m ≤ t)
    (hlow : ∀ u, m ≤ u → u < t → (ins u).txStart = false) :
    (UartTx.run c ins t).stateReg = .idle ∧ tx (UartTx.run c ins t) = true := by
  induction t, ht using Nat.le_induction with
  | base => exact ⟨hidle, htx⟩
  | succ t ht ih =>
    obtain ⟨hi, -⟩ := ih fun u hu hut => hlow u hu (by omega)
    obtain ⟨hhigh, -, -, hstay⟩ := next_idle (c := c) (i := ins t) hi
    exact ⟨hstay (hlow t ht (Nat.lt_succ_self t)), hhigh⟩

end Accepts

/-- **Transmit framing**: a byte taken in the idle state and held until `tx_done_tick` goes out
as a frame, on any tick schedule. -/
theorem framing (hv : c.Valid) (hp : c.pbit = 0 ∨ c.pbit = 1 ∨ c.pbit = 2)
    (h : Accepts c ins a byte) (hstable : Stable c ins a byte) : Frames c ins a byte where
  line j n hj hn := by
    subst hj
    exact h.line hv hp hstable hn
  done j n hj hn := by
    subst hj
    exact h.done_iff hv hn
  rest j ht hj t hjt hlow := by
    have hidle := h.idle_after hv ht hj
    have hsb := hv.sb
    have htx : tx (run c ins (a + 1 + j + 1)) = true := by
      rw [h.line hv hp hstable (by omega)]
      refine Settings.level_of_lt ((Nat.le_div_iff_mul_le hv.os).mpr ?_)
      show (c.bits + 1) * c.osTick.toNat ≤ _
      rw [total] at hj
      omega
    obtain ⟨hidle', htx'⟩ := Accepts.rest hidle htx hjt hlow
    exact ⟨hidle', htx', (next_idle hidle').2.1⟩
  ends hticks := by
    have hsb := hv.sb
    have hpos : 0 < total c := Nat.add_pos_right _ hsb
    obtain ⟨m, hm⟩ := exists_ticks_eq hticks (total c)
    obtain ⟨j, -, ht, hj⟩ := exists_tick (show total c - 1 < ticks (tickOf ins) (a + 1) m by omega)
    exact ⟨j, ht, by omega⟩

/-- The byte 0x55 offered for ever, on every clock a tick. -/
def offered (_ : ℕ) : In := ⟨true, true, 0x55⟩

theorem framing_offered : Frames ⟨7, 2, 24, 16⟩ offered 0 0x55 :=
  framing ⟨Or.inl rfl, by decide, by decide⟩ (Or.inr (Or.inr rfl)) ⟨rfl, rfl, rfl⟩
    fun _ _ _ => rfl

end Blastit.Rtl.UartTx
