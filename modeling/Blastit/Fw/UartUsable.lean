import Blastit.Fw.Uart
import Blastit.Rtl.HalfStop

/-!
The settings `uart_open` programs, on the wire.

One and two stop bits are not shorter than a bit, so the loopback delivers; half a stop
bit is exactly what the receiver's half start bit leaves over of one, and loses frames.
-/

namespace Blastit.Fw.Uart

open Blastit.Rtl Blastit.Rtl.UartFrame

variable {R W : ℕ}

/-- Two instances programmed by this call of `uart1_init` deliver every byte, whatever the
phases of their counters and the timing of the writes and reads. -/
def Usable (R W : ℕ) (a : Uart1Init) : Prop :=
  ∀ L : Loopback R W 16, L.c = a.settings → L.dvsr = a.dvsr → L.Fits → L.Delivers

section
variable {s s' : State} {a : Uart1Init} {dbit : UartDbit} {pbit : UartParity} {sbit : UartSbit}
  {baud : BitVec 32}

lemma settings_of_open (hopen : uartOpen s dbit sbit pbit baud = .ok (uartReady, s'))
    (hcall : s'.uart1 = some a) :
    ∃ sbTick, sbit.sbTick 16 = some sbTick ∧
      a.settings = ⟨dbit.setWidth 4, pbit.setWidth 2, sbTick, 16⟩ := by
  obtain ⟨sbTick, dvsr, hsb, rfl⟩ := uartOpen_ok hopen
  simp only [Option.some.injEq] at hcall
  rw [← hcall, Uart1Init.settings_eq]
  refine ⟨sbTick, hsb, ?_⟩
  simp only [BitVec.setWidth_setWidth_of_le _ (show 4 ≤ 8 by decide),
    BitVec.setWidth_setWidth_of_le _ (show 2 ≤ 8 by decide)]

lemma sbTick_pos {sbTick : BitVec 8} (h : sbit.sbTick 16 = some sbTick) : 0 < sbTick.toNat := by
  cases sbit <;> simp [UartSbit.sbTick] at h <;> subst h <;> decide

lemma samples_of_ne_half {sbTick : BitVec 8} (h : sbit.sbTick 16 = some sbTick)
    (hne : sbit ≠ .half) : 2 ≤ (16 : BitVec 8).toNat ∧ (16 : BitVec 8).toNat ≤ sbTick.toNat := by
  cases sbit with
  | half => exact absurd rfl hne
  | one => cases h; decide
  | two => cases h; decide
  | other => cases h

/-- **`uart_open` programs a usable port exactly when it is not asked for half a stop
bit.** -/
theorem usable_iff (hR : 1 ≤ R) (hW : 1 ≤ W) (hdbit : dbit = uartDbit7 ∨ dbit = uartDbit8)
    (hopen : uartOpen s dbit sbit pbit baud = .ok (uartReady, s')) (hcall : s'.uart1 = some a)
    (hdvsr : 1 ≤ a.dvsr.toNat) : Usable R W a ↔ sbit ≠ .half := by
  obtain ⟨sbTick, hsb, hset⟩ := settings_of_open hopen hcall
  have hv : a.settings.Valid := by
    rw [hset]
    refine ⟨?_, show 0 < (16 : BitVec 8).toNat by decide, sbTick_pos hsb⟩
    rcases hdbit with rfl | rfl
    · exact Or.inl rfl
    · exact Or.inr rfl
  constructor
  · rintro huse rfl
    have hsb8 : sbTick = 8 := (Option.some.inj hsb).symm
    have he : Loopback.StopsEarly a.settings := by
      rw [hset, hsb8]
      show (16 - 1) / 2 + 1 + 8 = 16
      rfl
    obtain ⟨hfits, hnot⟩ := Loopback.not_delivers_early (R := R) (W := W) hv he hR hW hdvsr
      (Loopback.wire_lastLow hv)
    exact hnot (huse _ rfl rfl hfits)
  · intro hne L hc hd hf
    have hs : L.Samples := by
      rw [Loopback.samples_iff, hc, hset]
      exact samples_of_ne_half hsb hne
    exact ⟨Loopback.delivered_initial hf.toFeeds hs, Loopback.exists_delivered hf.toFeeds hs,
      Loopback.read_delivered hf, fun _ => Loopback.eFrame_low hf.toFeeds hs⟩

end

/-- 115200 baud, eight data bits, no parity, one stop bit. -/
theorem usable_one_stop_bit :
    Usable 8 8 ⟨8, 0, 16, 16, 27⟩ ↔ UartSbit.one ≠ .half :=
  usable_iff (s := initial) (by decide) (by decide) (Or.inr rfl)
    (show uartOpen initial 8 .one 0 115200 = .ok (uartReady, _) from rfl) rfl (by decide)

/-- The same with half a stop bit: `uart_open` succeeds, and a frame is lost. -/
theorem not_usable_half_stop_bit :
    (∃ s', uartOpen initial 8 .half 0 115200 = .ok (uartReady, s') ∧
      s'.uart1 = some ⟨8, 0, 8, 16, 27⟩) ∧ ¬ Usable 8 8 ⟨8, 0, 8, 16, 27⟩ := by
  have hv : (⟨8, 0, 8, 16, 27⟩ : Uart1Init).settings.Valid :=
    ⟨Or.inr (by decide), by decide, by decide⟩
  refine ⟨⟨_, rfl, rfl⟩, fun huse => ?_⟩
  have hdvsr : 1 ≤ (27 : BitVec 16).toNat := by decide
  obtain ⟨hfits, hnot⟩ := Loopback.not_delivers_early (R := 8) (W := 8)
    hv (show _ = _ by decide) (by decide) (by decide) hdvsr (Loopback.wire_lastLow hv)
  exact hnot (huse _ rfl rfl hfits)

end Blastit.Fw.Uart
