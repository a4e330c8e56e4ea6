import Blastit.Lib.Clocked
import Blastit.Lib.Sizing
import Blastit.Rtl.UartFrame

/-!
`uart_tx.v`: the transmitter, and the frame it puts on the line.

Its states are the slots of a frame, so the slot rule says where it stands after any
number of ticks; the line shows the slot of the clock before.
-/

namespace Blastit.Rtl.UartTx

open Blastit.Lib.Clocked Blastit.Lib.Sizing Blastit.Lib.Ticks Blastit.Rtl.UartFrame

structure State where
  stateReg : Phase
  sReg : BitVec 8
  nReg : BitVec 3
  bReg : BitVec 8
  txReg : Bool

structure In where
  txStart : Bool
  sTick : Bool
  din : BitVec 8

def reset : State := ⟨.idle, 0, 0, 0, true⟩

def next (c : Settings) (s : State) (i : In) : State :=
  match s.stateReg with
  | .idle =>
    if i.txStart then { s with txReg := true, stateReg := .start, sReg := 0, bReg := i.din }
    else { s with txReg := true }
  | .start =>
    if i.sTick then
      if s.sReg.setWidth 32 == c.osTick.setWidth 32 - 1 then
        { s with txReg := false, stateReg := .data, sReg := 0, nReg := 0 }
      else { s with txReg := false, sReg := s.sReg + 1 }
    else { s with txReg := false }
  | .data =>
    let txNext := s.bReg.getLsbD s.nReg.toNat
    if i.sTick then
      if s.sReg.setWidth 32 == c.osTick.setWidth 32 - 1 then
        if s.nReg.setWidth 32 == c.dbit.setWidth 32 - 1 then
          { s with
            txReg := txNext, sReg := 0, nReg := 0
            stateReg := if c.pbit != 0 then .parity else .stop }
        else { s with txReg := txNext, sReg := 0, nReg := s.nReg + 1 }
      else { s with txReg := txNext, sReg := s.sReg + 1 }
    else { s with txReg := txNext }
  | .parity =>
    let txNext := parityCalculator i.din c.dbit c.pbit
    if i.sTick then
      if s.sReg.setWidth 32 == c.osTick.setWidth 32 - 1 then
        { s with txReg := txNext, sReg := 0, nReg := 0, stateReg := .stop }
      else { s with txReg := txNext, sReg := s.sReg + 1 }
    else { s with txReg := txNext }
  | .stop =>
    if i.sTick then
      if s.sReg.setWidth 32 == c.sbTick.setWidth 32 - 1 then
        { s with txReg := true, stateReg := .idle }
      else { s with txReg := true, sReg := s.sReg + 1 }
    else { s with txReg := true }

def txDoneTick (c : Settings) (s : State) (i : In) : Bool :=
  s.stateReg == .stop && i.sTick && s.sReg.setWidth 32 == c.sbTick.setWidth 32 - 1

def tx (s : State) : Bool := s.txReg

/-! ### One clock -/

/-- The transmitter has spent `s` ticks in slot `k` of the frame of `byte`. -/
structure At (c : Settings) (byte : BitVec 8) (k s : ℕ) (st : State) : Prop where
  phase : st.stateReg = c.slotPhase k
  sReg : st.sReg.toNat = s
  nReg : 1 ≤ k → k ≤ c.dbit.toNat → st.nReg.toNat = k - 1
  bReg : st.bReg = byte

variable {c : Settings} {byte : BitVec 8} {k s : ℕ} {st : State} {i : In}

lemma next_idle (h : st.stateReg = .idle) :
    (next c st i).txReg = true ∧ txDoneTick c st i = false ∧
      (i.txStart = true → At c i.din 0 0 (next c st i)) ∧
      (i.txStart = false → (next c st i).stateReg = .idle) := by
  refine ⟨?_, ?_, ?_, ?_⟩
  · simp only [next, h]; split_ifs <;> rfl
  · simp [txDoneTick, h]
  · intro hs
    simp only [next, h, hs, if_true]
    exact ⟨by simp [Settings.slotPhase], rfl, fun h1 => absurd h1 (by decide), rfl⟩
  · intro hs; simp [next, h, hs]

lemma next_txReg (h : At c byte k s st) (hk : k < c.bits + 2) (hdin : i.din = byte) :
    (next c st i).txReg = c.wire byte k := by
  have hph := h.phase
  rcases c.slot_cases byte hk with ⟨-, hp, hw⟩ | ⟨h1, h2, hp, hw⟩ | ⟨-, -, -, hp, hw⟩ | ⟨-, hp, hw⟩
  · rw [hp] at hph
    rw [hw]; simp only [next, hph]; split_ifs <;> rfl
  · rw [hp] at hph
    rw [hw, ← h.bReg, ← h.nReg h1 h2]; simp only [next, hph]; split_ifs <;> rfl
  · rw [hp] at hph
    rw [hw, ← hdin]; simp only [next, hph]; split_ifs <;> rfl
  · rw [hp] at hph
    rw [hw]; simp only [next, hph]; split_ifs <;> rfl

lemma next_no_tick (h : At c byte k s st) (hk : k < c.bits + 2) (ht : i.sTick = false) :
    At c byte k s (next c st i) := by
  obtain ⟨hph, hs, hn, hb⟩ := h
  rcases c.slot_cases byte hk with ⟨-, hp, -⟩ | ⟨-, -, hp, -⟩ | ⟨-, -, -, hp, -⟩ | ⟨-, hp, -⟩
  all_goals
    rw [hp] at hph
    simp only [next, hph, ht, Bool.false_eq_true, if_false]
    exact ⟨hp.symm, hs, hn, hb⟩

lemma tick_iff (h : st.sReg.toNat = s) (x : BitVec 8) :
    (st.sReg.setWidth 32 == x.setWidth 32 - 1) = true ↔ s + 1 = x.toNat := by
  rw [eq_sub_one_iff _ _ (by decide) (by decide), h]

lemma next_tick (h : At c byte k s st) (hk : k < c.bits + 2) (ht : i.sTick = true)
    (hs : s + 1 < c.txDur k) : At c byte k (s + 1) (next c st i) := by
  obtain ⟨hph, hsr, hn, hb⟩ := h
  have hos := c.osTick.isLt
  have hsb := c.sbTick.isLt
  have hlt : st.sReg.toNat + 1 < 2 ^ 8 := by
    unfold Settings.txDur at hs; split at hs <;> omega
  have hadd : (st.sReg + 1).toNat = s + 1 := by rw [toNat_succ hlt, hsr]
  rcases c.slot_cases byte hk with ⟨h0, hp, -⟩ | ⟨h1, h2, hp, -⟩ | ⟨h0, h1, -, hp, -⟩ | ⟨h0, hp, -⟩
  all_goals
    rw [hp] at hph
    have hne : ¬ (st.sReg.setWidth 32 == (if k = c.bits + 1 then c.sbTick else c.osTick).setWidth 32
        - 1) = true := by
      rw [tick_iff hsr]
      unfold Settings.txDur at hs
      split at hs <;> simp_all <;> omega
    first
      | rw [if_neg (by have := c.dbit_le_bits; omega)] at hne
      | rw [if_pos (by omega)] at hne
    simp only [next, hph, ht, hne, if_true, Bool.false_eq_true, if_false]
    exact ⟨hp.symm, hadd, hn, hb⟩

/-- The tick that ends a slot leads to the next one. -/
lemma next_slot (hd : 1 ≤ c.dbit.toNat) (hd8 : c.dbit.toNat ≤ 8) (h : At c byte k s st)
    (hk : k + 1 < c.bits + 2) (ht : i.sTick = true) (hs : s + 1 = c.txDur k) :
    At c byte (k + 1) 0 (next c st i) := by
  obtain ⟨hph, hsr, hn, hb⟩ := h
  rw [Settings.txDur_of_le (by omega)] at hs
  have he := (tick_iff hsr c.osTick).mpr hs
  rcases c.slot_cases byte (show k < c.bits + 2 by omega) with
    ⟨h0, hp, -⟩ | ⟨h1, h2, hp, -⟩ | ⟨h0, h1, -, hp, -⟩ | ⟨h0, -, -⟩
  · -- start bit to the first data bit
    rw [hp] at hph
    simp only [next, hph, ht, he, if_true]
    exact ⟨(Settings.slotPhase_data (by omega) (by omega)).symm, rfl,
      fun _ _ => by simp [h0], hb⟩
  · rw [hp] at hph
    have hlast : (st.nReg.setWidth 32 == c.dbit.setWidth 32 - 1) = true ↔ k = c.dbit.toNat := by
      rw [eq_sub_one_iff _ _ (by decide) (by decide), hn h1 h2]
      omega
    by_cases hkd : k = c.dbit.toNat
    · -- the last data bit to the parity bit, or straight to the stop bit
      simp only [next, hph, ht, he, hlast.mpr hkd, if_true]
      exact ⟨hkd ▸ Settings.after_data, rfl, fun _ _ => by omega, hb⟩
    · simp only [next, hph, ht, he, mt hlast.mp hkd, if_true, Bool.false_eq_true, if_false]
      refine ⟨(Settings.slotPhase_data (by omega) (by omega)).symm, rfl, fun _ _ => ?_, hb⟩
      rw [toNat_succ (by rw [hn h1 h2]; omega), hn h1 h2]
      omega
  · -- parity bit to the stop bit
    rw [hp] at hph
    simp only [next, hph, ht, he, if_true]
    refine ⟨?_, rfl, fun _ _ => by omega, hb⟩
    rw [h1]
    exact Settings.slotPhase_stop.symm
  · omega

lemma next_last (h : At c byte k s st) (hk : k = c.bits + 1) (ht : i.sTick = true)
    (hs : s + 1 = c.txDur k) : (next c st i).stateReg = .idle := by
  obtain ⟨hph, hsr, -, -⟩ := h
  rw [hk, Settings.txDur_last] at hs
  rw [hk, Settings.slotPhase_stop] at hph
  have he := (tick_iff hsr c.sbTick).mpr hs
  simp only [next, hph, ht, he, if_true]

lemma txDoneTick_iff (h : At c byte k s st) (hk : k < c.bits + 2) :
    txDoneTick c st i = true ↔ k = c.bits + 1 ∧ i.sTick = true ∧ s + 1 = c.txDur k := by
  obtain ⟨hph, hsr, -, -⟩ := h
  have he := tick_iff hsr c.sbTick
  rcases c.slot_cases byte hk with ⟨h0, hp, -⟩ | ⟨-, h2, hp, -⟩ | ⟨-, h1, -, hp, -⟩ | ⟨h0, hp, -⟩
  · have : k ≠ c.bits + 1 := by omega
    simp [txDoneTick, hph, hp, this]
  · have : k ≠ c.bits + 1 := by have := c.dbit_le_bits; omega
    simp [txDoneTick, hph, hp, this]
  · have : k ≠ c.bits + 1 := by omega
    simp [txDoneTick, hph, hp, this]
  · rw [h0] at hph ⊢
    rw [Settings.txDur_last, ← he, txDoneTick, hph, Settings.slotPhase_stop]
    simp

end Blastit.Rtl.UartTx
