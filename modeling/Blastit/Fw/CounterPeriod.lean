import Blastit.Fw.Timers
import Blastit.Rtl.TxFrame

/-!
What rests on the period of `mod_m_counter`: the length of a bit on a serial line and the pace of
a timer.

The firmware counts on a period of `m` clocks; the counter compares with `m` itself and takes
one more.
-/

namespace Blastit.Fw.CounterPeriod

open Blastit.Lib.Clocked Blastit.Lib.Ticks Blastit.Rtl Blastit.Rtl.ModMCounter Blastit.Rtl.UartFrame
  Blastit.Fw.Timers

variable {M : ℕ}

/-! ### A bit on the line -/

/-- The transmitter's inputs with the ticks of a baud generator. -/
def clocked (dvsr : BitVec M) (ins : ℕ → UartTx.In) (t : ℕ) : UartTx.In :=
  { ins t with sTick := maxTickAt dvsr t }

/-- The slot the transmitter is in. -/
def slotOf (c : Settings) (st : UartTx.State) : Option ℕ :=
  match st.stateReg with
  | .idle => none
  | .start => some 0
  | .data => some (st.nReg.toNat + 1)
  | .parity => some c.bits
  | .stop => some (c.bits + 1)

/-- Bit `k` of the frame of the byte taken at clock `a` lasts `L` clocks. -/
def BitLasts (c : Settings) (dvsr : BitVec M) (ins : ℕ → UartTx.In) (a k L : ℕ) : Prop :=
  ∃ i, ∀ j, ticks (maxTickAt dvsr) (a + 1) j < UartTx.total c →
    (slotOf c (UartTx.run c (clocked dvsr ins) (a + 1 + j)) = some k ↔ i ≤ j ∧ j < i + L)

section
variable {c : Settings} {dvsr : BitVec M} {ins : ℕ → UartTx.In} {a k s L : ℕ} {byte : BitVec 8}
  {st : UartTx.State}

lemma slotOf_eq (hk : k < c.bits + 2) (h : UartTx.At c byte k s st) : slotOf c st = some k := by
  obtain ⟨hphase, -, hn, -⟩ := h
  rcases c.slot_cases byte hk with ⟨h0, hp, -⟩ | ⟨h1, h2, hp, -⟩ | ⟨-, h2, -, hp, -⟩ | ⟨h1, hp, -⟩
  all_goals
    rw [hp] at hphase
    simp only [slotOf, hphase, Option.some.injEq]
  · exact h0.symm
  · rw [hn h1 h2]
    omega
  · exact h2.symm
  · exact h1.symm

/-- **The slot by the ticks since the byte was taken.** -/
lemma slotOf_iff (hv : c.Valid) (h : UartTx.Accepts c (clocked dvsr ins) a byte) (hk : k ≤ c.bits)
    {j : ℕ} (hj : ticks (maxTickAt dvsr) (a + 1) j < UartTx.total c) :
    slotOf c (UartTx.run c (clocked dvsr ins) (a + 1 + j)) = some k ↔
      k * c.osTick.toNat ≤ ticks (maxTickAt dvsr) (a + 1) j ∧
        ticks (maxTickAt dvsr) (a + 1) j < k * c.osTick.toNat + c.osTick.toNat := by
  have hslot := hj
  rw [UartTx.total_eq] at hslot
  obtain ⟨k', s, hk', hs, hn⟩ := exists_slot c.txDur hslot
  have hrun := h.run hv j k' s hk' hs hn
  rw [slotOf_eq hk' hrun, Option.some.injEq, hn, Settings.bound_txDur (by omega)]
  constructor
  · rintro rfl
    rw [Settings.txDur_of_le hk] at hs
    omega
  · rintro ⟨hlo, hhi⟩
    have hlt : k' < k + 1 := by
      refine Nat.lt_of_mul_lt_mul_right (a := c.osTick.toNat) ?_
      rw [Nat.succ_mul]
      omega
    rw [Settings.txDur_of_le (by omega)] at hs
    have hlt' : k < k' + 1 := by
      refine Nat.lt_of_mul_lt_mul_right (a := c.osTick.toNat) ?_
      rw [Nat.succ_mul]
      omega
    omega

lemma eq_of_window {i i' n n' : ℕ} (hn : 0 < n)
    (h : ∀ j ≤ i + n, (i' ≤ j ∧ j < i' + n' ↔ i ≤ j ∧ j < i + n)) : n' = n := by
  have hfirst := h i (by omega)
  have hlast := h (i + n - 1) (by omega)
  have hpast := h (i + n) (by omega)
  have hbefore := h (i - 1) (by omega)
  omega

lemma bit_window (hv : c.Valid) (h : UartTx.Accepts c (clocked dvsr ins) a byte) (hk : 1 ≤ k)
    (hk' : k ≤ c.bits) : ∃ i,
      (∀ j, ticks (maxTickAt dvsr) (a + 1) j < UartTx.total c →
        (slotOf c (UartTx.run c (clocked dvsr ins) (a + 1 + j)) = some k ↔
          i ≤ j ∧ j < i + c.osTick.toNat * (dvsr.toNat + 1))) ∧
      ∀ j ≤ i + c.osTick.toNat * (dvsr.toNat + 1),
        ticks (maxTickAt dvsr) (a + 1) j < UartTx.total c := by
  have htrain := train_reset dvsr
  have hlo : 0 < k * c.osTick.toNat := Nat.mul_pos hk hv.os
  refine ⟨countdown dvsr (exec next reset (fun _ => dvsr) (a + 1)) +
    (k * c.osTick.toNat - 1) * (dvsr.toNat + 1) + 1, fun j hj => ?_, fun j hj => ?_⟩
  · rw [slotOf_iff hv h hk' hj, htrain.ticks_slot hlo]
    omega
  · -- a tick later the stop bit is still there
    have hticks := htrain.lt_ticks_iff (a + 1) (k * c.osTick.toNat - 1 + (c.osTick.toNat + 1)) j
    have hmul : (k + 1) * c.osTick.toNat ≤ (c.bits + 1) * c.osTick.toNat :=
      Nat.mul_le_mul_right _ (Nat.succ_le_succ hk')
    have hsb := hv.sb
    rw [Nat.add_mul _ (c.osTick.toNat + 1), Nat.succ_mul c.osTick.toNat] at hticks
    rw [Nat.succ_mul] at hmul
    rw [UartTx.total]
    omega

/-- **A bit lasts `os_tick` periods of the counter.** -/
theorem bitLasts_iff (hv : c.Valid) (h : UartTx.Accepts c (clocked dvsr ins) a byte) (hk : 1 ≤ k)
    (hk' : k ≤ c.bits) :
    BitLasts c dvsr ins a k L ↔ L = c.osTick.toNat * (dvsr.toNat + 1) := by
  obtain ⟨i, hi, hframe⟩ := bit_window hv h hk hk'
  constructor
  · rintro ⟨i', hi'⟩
    have hsame : ∀ j ≤ i + c.osTick.toNat * (dvsr.toNat + 1), (i' ≤ j ∧ j < i' + L ↔
        i ≤ j ∧ j < i + c.osTick.toNat * (dvsr.toNat + 1)) := fun j hj =>
      (hi' j (hframe j hj)).symm.trans (hi j (hframe j hj))
    exact eq_of_window (Nat.mul_pos hv.os (Nat.succ_pos _)) hsame
  · rintro rfl
    exact ⟨i, hi⟩

end

/-! ### A timer -/

/-- The timer counts one tick in any `P` clocks after its release. -/
def AdvancesEvery {tc : TcArray} (run : Timers.Run tc) (P : ℕ) : Prop :=
  ∀ t, 0 < t → run.ticks (t + P) = run.ticks t + 1

section
variable {tc : TcArray} (run : Timers.Run tc)

lemma ticks_run (t : ℕ) : run.ticks t = ticks (maxTickAt run.m) 0 t := by
  rw [Timers.Run.ticks]
  simp only [run.bankAt_eq, TimerCounter.maxTick_exec]

theorem advancesEvery_iff (P : ℕ) : AdvancesEvery run P ↔ P = run.m.toNat + 1 := by
  rw [← oncePer_iff]
  refine forall₂_congr fun t _ => ?_
  rw [ticks_run, ticks_run, ticks_add, Nat.zero_add]
  omega

lemma m_tcSetMax {w : BitVec 32} (h : run.call = .tcSetMax w) : run.m = w := by
  simp [Timers.Run.m, h, Restart.writes, Regs.write]

end

/-! ### A period of `m` -/

/-- **Nothing that counts on a period of `m` clocks gets it**, whatever `m` is: not the ticks, not
a bit with the divisor `m`, not a timer with the maximum `m`. -/
theorem not_mod_m (m : BitVec M) :
    ¬ OncePer m m.toNat ∧ ¬ Apart m m.toNat ∧
      (∀ (c : Settings) (ins : ℕ → UartTx.In) (a k : ℕ) (byte : BitVec 8), c.Valid →
        UartTx.Accepts c (clocked m ins) a byte → 1 ≤ k → k ≤ c.bits →
          ¬ BitLasts c m ins a k (c.osTick.toNat * m.toNat)) ∧
      ∀ (tc : TcArray) (run : Timers.Run tc) (w : BitVec 32), run.call = .tcSetMax w →
        ¬ AdvancesEvery run w.toNat := by
  refine ⟨?_, ?_, fun c ins a k byte hv h hk hk' => ?_, fun tc run w hw => ?_⟩
  · rw [oncePer_iff]
    omega
  · rw [apart_iff]
    omega
  · rw [bitLasts_iff hv h hk hk', Nat.mul_succ]
    have hos := hv.os
    omega
  · rw [advancesEvery_iff, m_tcSetMax run hw]
    omega

/-- `tc_set_max(Tc1, 50000)` after power-up: a millisecond. -/
def millisecond : Timers.Run .tc1 where
  call := .tcSetMax 50000
  dwell := fun _ => 0
  regs := ⟨0, fun _ => 0⟩
  timers := fun _ => TimerCounter.reset
  after := fun _ => ⟨0, fun _ => 50000⟩
  runs := fun _ => rfl
  keeps := fun _ => rfl

/-- The divisor of 115200 baud: the first data bit of a byte that is always on offer, and `Tc1`
with a maximum. -/
theorem not_mod_m_offered :
    ¬ BitLasts ⟨8, 0, 16, 16⟩ (27 : BitVec 16) UartTx.offered 0 1 (16 * 27) ∧
      ¬ AdvancesEvery millisecond 50000 :=
  ⟨(not_mod_m (27 : BitVec 16)).2.2.1 ⟨8, 0, 16, 16⟩ UartTx.offered 0 1 0x55
      ⟨Or.inr rfl, by decide, by decide⟩ ⟨rfl, rfl, rfl⟩ (by decide) (by decide),
    (not_mod_m (27 : BitVec 16)).2.2.2 .tc1 millisecond 50000 rfl⟩

/-- The counter of the test bench ticks on clocks 164 and 328. -/
theorem not_apart_testbench : ¬ OncePer (163 : BitVec 8) 163 ∧ ¬ Apart (163 : BitVec 8) 163 := by
  rw [oncePer_iff, apart_iff]
  decide

end Blastit.Fw.CounterPeriod
