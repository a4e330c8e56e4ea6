import Blastit.Fw.UartUsable
import Blastit.Rtl.LinkReset

/-!
How long `uart1_init` and `uart1_reset` hold the reset.

The loop counts the clocks of the data bits, of as many bits as the parity setting says and of
the stop bit, at one clock a pass, and leaves out the start bit and the clock on which the baud
counter wraps. A pass that takes four clocks makes up for both at any divisor.
-/

namespace Blastit.Fw.Uart

open Blastit.Rtl Blastit.Rtl.Uart Blastit.Rtl.UartFrame

def Uart1Init.uart1ResetCounts (a : Uart1Init) : BitVec 32 :=
  a.dvsr.setWidth 32 * a.osTick.setWidth 32 * (a.dbit.setWidth 32 + a.pbit.setWidth 32) +
    a.dvsr.setWidth 32 * a.sbTick.setWidth 32

/-- The clocks of `while (counts-- > 0) nop();`, if the `k`-th last pass takes `pass k`. -/
def holdLoop (pass : ℕ → ℕ) : ℕ → ℕ
  | 0 => 0
  | counts + 1 => pass counts + holdLoop pass counts

/-- What is passed to `uart1_init` for one or two stop bits. -/
structure Uart1Init.WholeStop (a : Uart1Init) : Prop where
  dbit : a.dbit = 7 ∨ a.dbit = 8
  pbit : a.pbit.toNat ≤ 2
  os : 2 ≤ a.osTick.toNat
  sb : a.osTick.toNat ≤ a.sbTick.toNat
  dvsr : 1 ≤ a.dvsr.toNat

section
variable {a : Uart1Init}

lemma Uart1Init.WholeStop.valid (h : a.WholeStop) : a.settings.Valid := by
  have hos := h.os
  have hsb := h.sb
  rw [Uart1Init.settings_eq]
  refine ⟨?_, show 0 < a.osTick.toNat by omega, show 0 < a.sbTick.toNat by omega⟩
  rcases h.dbit with hd | hd
  · exact Or.inl (by rw [hd]; rfl)
  · exact Or.inr (by rw [hd]; rfl)

lemma Uart1Init.WholeStop.bits_le (h : a.WholeStop) :
    a.settings.bits ≤ a.dbit.toNat + a.pbit.toNat := by
  have hdbit : a.settings.dbit.toNat = a.dbit.toNat := by
    rw [Uart1Init.settings_eq]
    rcases h.dbit with hd | hd <;> rw [hd] <;> rfl
  have hpbit : a.settings.pbit.toNat = a.pbit.toNat := by
    have := h.pbit
    rw [Uart1Init.settings_eq, BitVec.toNat_setWidth]
    omega
  have hzero : a.settings.pbit = 0 ↔ a.pbit.toNat = 0 := by
    rw [← BitVec.toNat_inj, hpbit]
    rfl
  rw [Settings.bits, hdbit]
  split
  · omega
  · next hne =>
    rw [hzero] at hne
    omega

/-- **The counts do not wrap.** -/
lemma Uart1Init.WholeStop.toNat_counts (h : a.WholeStop) : a.uart1ResetCounts.toNat =
    a.dvsr.toNat *
      (a.osTick.toNat * (a.dbit.toNat + a.pbit.toNat) + a.sbTick.toNat) := by
  have hdvsr := a.dvsr.isLt
  have hos := a.osTick.isLt
  have hsb := a.sbTick.isLt
  have hbits : a.dbit.toNat + a.pbit.toNat ≤ 10 := by
    have hp := h.pbit
    have hd : a.dbit.toNat ≤ 8 := by rcases h.dbit with hd | hd <;> rw [hd] <;> decide
    omega
  have hprod : a.dvsr.toNat * a.osTick.toNat ≤ 65535 * 255 := Nat.mul_le_mul (by omega) (by omega)
  have hdata : a.dvsr.toNat * a.osTick.toNat * (a.dbit.toNat + a.pbit.toNat) ≤ 65535 * 255 * 10 :=
    Nat.mul_le_mul hprod hbits
  have hstop : a.dvsr.toNat * a.sbTick.toNat ≤ 65535 * 255 := Nat.mul_le_mul (by omega) (by omega)
  have hw : ∀ {n : ℕ} (x : BitVec n), n ≤ 32 → (x.setWidth 32).toNat = x.toNat := by
    intro n x hn
    rw [BitVec.toNat_setWidth, Nat.mod_eq_of_lt]
    exact x.isLt.trans_le (Nat.pow_le_pow_right (by decide) hn)
  simp only [Uart1Init.uart1ResetCounts, BitVec.toNat_add, BitVec.toNat_mul,
    hw a.dvsr (by decide), hw a.osTick (by decide), hw a.dbit (by decide), hw a.pbit (by decide),
    hw a.sbTick (by decide)]
  rw [Nat.mod_eq_of_lt (show a.dvsr.toNat * a.osTick.toNat < 2 ^ 32 by omega),
    Nat.mod_eq_of_lt (show a.dbit.toNat + a.pbit.toNat < 2 ^ 32 by omega),
    Nat.mod_eq_of_lt (show a.dvsr.toNat * a.osTick.toNat *
      (a.dbit.toNat + a.pbit.toNat) < 2 ^ 32 by omega),
    Nat.mod_eq_of_lt (show a.dvsr.toNat * a.sbTick.toNat < 2 ^ 32 by omega),
    Nat.mod_eq_of_lt (by omega)]
  ring

/-- A loop whose passes take four clocks each. -/
lemma le_holdLoop {pass : ℕ → ℕ} (hpass : ∀ k, 4 ≤ pass k) (counts : ℕ) :
    4 * counts ≤ holdLoop pass counts := by
  induction counts with
  | zero => exact Nat.le_refl _
  | succ counts ih =>
    have hlast := hpass counts
    rw [holdLoop]
    omega

/-- **The loop outlasts a frame** of the far end. -/
lemma Uart1Init.WholeStop.frame_lt_hold (h : a.WholeStop) {pass : ℕ → ℕ} (hpass : ∀ k, 4 ≤ pass k) :
    rxTotal a.settings * (a.dvsr.toNat + 1) < holdLoop pass a.uart1ResetCounts.toNat := by
  have hos : a.settings.osTick = a.osTick := by rw [Uart1Init.settings_eq]
  have hsb : a.settings.sbTick = a.sbTick := by rw [Uart1Init.settings_eq]
  have hhalf : a.settings.half ≤ a.osTick.toNat := by
    have := h.os
    rw [Settings.half, hos]
    omega
  have hbits : a.settings.bits * a.osTick.toNat ≤
      a.osTick.toNat * (a.dbit.toNat + a.pbit.toNat) := by
    rw [Nat.mul_comm]
    exact Nat.mul_le_mul_left _ h.bits_le
  have hdata : a.osTick.toNat * 2 ≤ a.osTick.toNat * (a.dbit.toNat + a.pbit.toNat) := by
    refine Nat.mul_le_mul_left _ ?_
    rcases h.dbit with hd | hd <;> rw [hd] <;> simp <;> omega
  have htotal : rxTotal a.settings <
      2 * (a.osTick.toNat * (a.dbit.toNat + a.pbit.toNat) + a.sbTick.toNat) := by
    have := h.os
    rw [rxTotal, Settings.bound_rxDur_last, hos, hsb]
    omega
  have hdvsr := h.dvsr
  calc rxTotal a.settings * (a.dvsr.toNat + 1)
      < 2 * (a.osTick.toNat * (a.dbit.toNat + a.pbit.toNat) + a.sbTick.toNat) *
          (a.dvsr.toNat + 1) := Nat.mul_lt_mul_of_pos_right htotal (Nat.succ_pos _)
    _ ≤ 2 * (a.osTick.toNat * (a.dbit.toNat + a.pbit.toNat) + a.sbTick.toNat) *
          (2 * a.dvsr.toNat) := Nat.mul_le_mul_left _ (by omega)
    _ = 4 * a.uart1ResetCounts.toNat := by
      rw [h.toNat_counts]
      ring
    _ ≤ holdLoop pass a.uart1ResetCounts.toNat := le_holdLoop hpass _

/-- **`uart1_reset` resynchronises the line**: with one or two stop bits, and a processor that
takes four clocks for a pass of its loop, the far end is at rest when the reset is released,
whatever it was told before; one byte at most comes out of it meanwhile, and from then on it
receives what is written, all of it and nothing else. -/
theorem resynchronised_of_reset {R W : ℕ} (h : a.WholeStop) {K : LinkReset R W 16}
    (hc : K.c = a.settings) (hdvsr : K.dvsr = a.dvsr) (hphase : ModMCounter.Phase K.dvsr K.phaseFar)
    (hroom : ∀ t, (K.after.txQueue t).length ≤ 2 ^ W - 1) {pass : ℕ → ℕ} (hpass : ∀ k, 4 ≤ pass k)
    (hhold : holdLoop pass a.uart1ResetCounts.toNat ≤ K.hold) : K.Resynchronised := by
  have hos : K.c.osTick = a.osTick := by rw [hc, Uart1Init.settings_eq]
  have hsb : K.c.sbTick = a.sbTick := by rw [hc, Uart1Init.settings_eq]
  have hfeeds : K.after.Feeds := by
    refine ⟨?_, ModMCounter.phase_reset _, ModMCounter.phase_exec hphase _, hroom⟩
    show K.c.Valid
    rw [hc]
    exact h.valid
  have hsamples : K.after.Samples := by
    refine ⟨show 2 ≤ K.c.osTick.toNat from ?_, show K.c.osTick.toNat ≤ K.c.sbTick.toNat from ?_⟩
    · rw [hos]
      exact h.os
    · rw [hos, hsb]
      exact h.sb
  refine LinkReset.resynchronised hfeeds hsamples hphase (lt_of_lt_of_le ?_ hhold)
  rw [hc, hdvsr]
  exact h.frame_lt_hold hpass

end

/-- The line held low for a thousand clocks, then a reset at 115200 baud, and a byte after it. -/
def afterBreak : LinkReset 8 8 16 where
  c := (⟨8, 0, 16, 16, 27⟩ : Uart1Init).settings
  dvsr := 27
  noise := fun _ => false
  start := 1000
  hold := holdLoop (fun _ => 4) (⟨8, 0, 16, 16, 27⟩ : Uart1Init).uart1ResetCounts.toNat
  before := blank
  inNear := Loopback.oneWrite 0x55
  phaseFar := ModMCounter.reset

theorem resynchronised_afterBreak : afterBreak.Resynchronised :=
  resynchronised_of_reset (a := ⟨8, 0, 16, 16, 27⟩)
    ⟨Or.inr rfl, by decide, by decide, by decide, by decide⟩ rfl rfl
    (ModMCounter.phase_reset _)
    (fun t => (Uart.length_txQueue_le t).trans
      ((Loopback.length_written_oneWrite (L := afterBreak.after) rfl t).trans
        (Loopback.one_le_room (by decide))))
    (fun _ => Nat.le_refl 4) (Nat.le_refl _)

end Blastit.Fw.Uart
