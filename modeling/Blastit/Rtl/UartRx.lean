import Blastit.Lib.Clocked
import Blastit.Lib.Sizing
import Blastit.Rtl.UartFrame

/-!
`uart_rx.v`: the receiver.

A low line takes it out of the idle state; from there on it goes through the slots of a
frame, looking at the line only on the tick that ends a slot. What it delivers is
therefore a function of the levels at those ticks.
-/

namespace Blastit.Rtl.UartRx

open Blastit.Lib.Clocked Blastit.Lib.Sizing Blastit.Lib.Ticks Blastit.Rtl.UartFrame

structure State where
  stateReg : Phase
  sReg : BitVec 8
  nReg : BitVec 3
  bReg : BitVec 8
  eParityReg : Bool
  eFrameReg : Bool

structure In where
  rx : Bool
  sTick : Bool

def reset : State := ⟨.idle, 0, 0, 0, false, false⟩

/-- `{rx, b_reg[7:1]}`: the sampled bit enters at the top. -/
def shiftIn (rx : Bool) (b : BitVec 8) : BitVec 8 := BitVec.ofBool rx ++ b.extractLsb' 1 7

def next (c : Settings) (s : State) (i : In) : State :=
  match s.stateReg with
  | .idle => if !i.rx then { s with stateReg := .start, sReg := 0 } else s
  | .start =>
    if i.sTick then
      if s.sReg.setWidth 32 == (c.osTick.setWidth 32 - 1) >>> 1 then
        { s with stateReg := .data, eParityReg := false, eFrameReg := false, sReg := 0, nReg := 0 }
      else { s with sReg := s.sReg + 1 }
    else s
  | .data =>
    if i.sTick then
      if s.sReg.setWidth 32 == c.osTick.setWidth 32 - 1 then
        let bNext := shiftIn i.rx s.bReg
        if s.nReg.setWidth 32 == c.dbit.setWidth 32 - 1 then
          { s with
            sReg := 0, bReg := bNext, nReg := 0
            stateReg := if c.pbit != 0 then .parity else .stop
            eParityReg := if c.pbit != 0 then s.eParityReg else false }
        else { s with sReg := 0, bReg := bNext, nReg := s.nReg + 1 }
      else { s with sReg := s.sReg + 1 }
    else s
  | .parity =>
    if i.sTick then
      if s.sReg.setWidth 32 == c.osTick.setWidth 32 - 1 then
        { s with
          eParityReg := parityCalculator s.bReg c.dbit c.pbit != i.rx
          sReg := 0, nReg := 0, stateReg := .stop }
      else { s with sReg := s.sReg + 1 }
    else s
  | .stop =>
    if i.sTick then
      if s.sReg.setWidth 32 == c.sbTick.setWidth 32 - 1 then
        { s with eFrameReg := !i.rx, sReg := 0, nReg := 0, stateReg := .idle }
      else { s with sReg := s.sReg + 1 }
    else s

def rxDoneTick (c : Settings) (s : State) (i : In) : Bool :=
  s.stateReg == .stop && i.sTick && s.sReg.setWidth 32 == c.sbTick.setWidth 32 - 1

def dout (c : Settings) (s : State) : BitVec 8 :=
  if c.dbit == 7 then s.bReg >>> 1 else if c.dbit == 8 then s.bReg else 0

def eFrame (s : State) : Bool := s.eFrameReg

def eParity (s : State) : Bool := s.eParityReg

/-! ### One clock -/

lemma shiftIn_getLsbD (rx : Bool) (b : BitVec 8) {i : ℕ} (hi : i < 8) :
    (shiftIn rx b).getLsbD i = if i = 7 then rx else b.getLsbD (i + 1) := by
  have h := BitVec.getLsbD_append (x := BitVec.ofBool rx) (y := b.extractLsb' 1 7) (i := i)
  refine h.trans ?_
  have h7 : i < 7 ∨ i = 7 := by omega
  rcases h7 with h7 | rfl
  · simp [h7, show i ≠ 7 by omega, Nat.add_comm]
  · simp

/-- The data bits the receiver has sampled when it enters slot `k`. -/
def taken (c : Settings) (k : ℕ) : ℕ := min (k - 1) c.dbit.toNat

/-- The receiver has spent `s` ticks in slot `k`; the levels it sampled at the ends of the
slots before are those of `x`. -/
structure At (c : Settings) (x : ℕ → Bool) (k s : ℕ) (st : State) : Prop where
  phase : st.stateReg = c.slotPhase k
  sReg : st.sReg.toNat = s
  nReg : 1 ≤ k → k ≤ c.dbit.toNat → st.nReg.toNat = k - 1
  bits : ∀ j < taken c k, st.bReg.getLsbD (8 - taken c k + j) = x (j + 1)
  frame : 1 ≤ k → st.eFrameReg = false

variable {c : Settings} {x : ℕ → Bool} {k s : ℕ} {st : State} {i : In}

lemma next_idle_high (h : st.stateReg = .idle) (hrx : i.rx = true) : next c st i = st := by
  simp [next, h, hrx]

lemma next_idle_low (h : st.stateReg = .idle) (hrx : i.rx = false) :
    At c x 0 0 (next c st i) := by
  simp only [next, h, hrx, Bool.not_false, if_true]
  exact ⟨by simp [Settings.slotPhase], rfl, fun h1 => absurd h1 (by decide),
    fun j hj => by simp [taken] at hj, fun h1 => absurd h1 (by decide)⟩

lemma not_rxDoneTick_idle (h : st.stateReg = .idle) : rxDoneTick c st i = false := by
  simp [rxDoneTick, h]

lemma next_no_tick (h : At c x k s st) (hk : k < c.bits + 2) (ht : i.sTick = false) :
    next c st i = st := by
  have hph := h.phase
  rcases c.slot_cases 0 hk with ⟨-, hp, -⟩ | ⟨-, -, hp, -⟩ | ⟨-, -, -, hp, -⟩ | ⟨-, hp, -⟩
  all_goals
    rw [hp] at hph
    simp only [next, hph, ht, Bool.false_eq_true, if_false]

/-- The comparison that ends slot `k`. -/
def slotEnd (c : Settings) (k : ℕ) (st : State) : Bool :=
  if k = 0 then st.sReg.setWidth 32 == (c.osTick.setWidth 32 - 1) >>> 1
  else st.sReg.setWidth 32 == (if k = c.bits + 1 then c.sbTick else c.osTick).setWidth 32 - 1

lemma slotEnd_iff (hv : c.Valid) (h : st.sReg.toNat = s) :
    slotEnd c k st = true ↔ s + 1 = c.rxDur k := by
  unfold slotEnd Settings.rxDur
  split
  · have hos := hv.os
    have hlt := c.osTick.isLt
    have h1 : (1 : BitVec 32).toNat = 1 := rfl
    have hsub : (c.osTick.setWidth 32 - 1).toNat = c.osTick.toNat - 1 := by
      rw [BitVec.toNat_sub, setWidth_toNat _ (by decide), h1]
      omega
    rw [beq_iff_eq, ← BitVec.toNat_inj, BitVec.toNat_ushiftRight, hsub,
      setWidth_toNat _ (by decide), h, Nat.shiftRight_eq_div_pow, Settings.half]
    omega
  · rw [eq_sub_one_iff _ _ (by decide) (by decide), h]
    split <;> rfl

lemma next_tick (hv : c.Valid) (h : At c x k s st) (hk : k < c.bits + 2) (ht : i.sTick = true)
    (hs : s + 1 < c.rxDur k) : At c x k (s + 1) (next c st i) := by
  obtain ⟨hph, hsr, hn, hb, hf⟩ := h
  have hos := c.osTick.isLt
  have hsb := c.sbTick.isLt
  have hlt : st.sReg.toNat + 1 < 2 ^ 8 := by
    have hv1 := hv.os
    unfold Settings.rxDur Settings.half at hs
    split at hs
    · omega
    · split at hs <;> omega
  have hadd : (st.sReg + 1).toNat = s + 1 := by rw [toNat_succ hlt, hsr]
  have hne : ¬ slotEnd c k st = true := by rw [slotEnd_iff hv hsr]; omega
  have hd := c.dbit_le_bits
  unfold slotEnd at hne
  rcases c.slot_cases 0 hk with ⟨h0, hp, -⟩ | ⟨h1, h2, hp, -⟩ | ⟨h0, h1, -, hp, -⟩ | ⟨h0, hp, -⟩
  · rw [hp] at hph
    rw [if_pos h0] at hne
    simp only [next, hph, ht, hne, if_true, Bool.false_eq_true, if_false]
    exact ⟨hp.symm, hadd, hn, hb, hf⟩
  · rw [hp] at hph
    rw [if_neg (by omega), if_neg (by omega)] at hne
    simp only [next, hph, ht, hne, if_true, Bool.false_eq_true, if_false]
    exact ⟨hp.symm, hadd, hn, hb, hf⟩
  · rw [hp] at hph
    rw [if_neg (by omega), if_neg (by omega)] at hne
    simp only [next, hph, ht, hne, if_true, Bool.false_eq_true, if_false]
    exact ⟨hp.symm, hadd, hn, hb, hf⟩
  · rw [hp] at hph
    rw [if_neg (by omega), if_pos h0] at hne
    simp only [next, hph, ht, hne, if_true, Bool.false_eq_true, if_false]
    exact ⟨hp.symm, hadd, hn, hb, hf⟩

lemma taken_eq_of_le {k : ℕ} (h : k ≤ c.dbit.toNat) : taken c k = k - 1 := by
  unfold taken; omega

lemma bits_shiftIn (hv : c.Valid) (hk : 1 ≤ k) (hk' : k ≤ c.dbit.toNat) {b : BitVec 8}
    (hb : ∀ j < taken c k, b.getLsbD (8 - taken c k + j) = x (j + 1)) :
    ∀ j < taken c (k + 1),
      (shiftIn (x k) b).getLsbD (8 - taken c (k + 1) + j) = x (j + 1) := by
  have hd := hv.dbit_toNat
  have h1 : taken c k = k - 1 := taken_eq_of_le hk'
  have h2 : taken c (k + 1) = k := by unfold taken; omega
  rw [h2]
  rw [h1] at hb
  intro j hj
  rw [shiftIn_getLsbD _ _ (by omega)]
  by_cases hjk : j + 1 = k
  · rw [if_pos (by omega), hjk]
  · rw [if_neg (by omega), ← hb j (by omega)]
    congr 1
    omega

/-- The tick that ends a slot samples the line and leads to the next slot. -/
lemma next_slot (hv : c.Valid) (h : At c x k s st) (hk : k + 1 < c.bits + 2)
    (ht : i.sTick = true) (hs : s + 1 = c.rxDur k) (hrx : 1 ≤ k → i.rx = x k) :
    At c x (k + 1) 0 (next c st i) := by
  obtain ⟨hph, hsr, hn, hb, hf⟩ := h
  have hd := hv.dbit_toNat
  have he := (slotEnd_iff hv hsr).mpr hs
  unfold slotEnd at he
  rcases c.slot_cases 0 (show k < c.bits + 2 by omega) with
    ⟨h0, hp, -⟩ | ⟨h1, h2, hp, -⟩ | ⟨h0, h1, -, hp, -⟩ | ⟨h0, -, -⟩
  · -- the middle of the start bit
    rw [hp] at hph
    rw [if_pos h0] at he
    simp only [next, hph, ht, he, if_true]
    refine ⟨(Settings.slotPhase_data (by omega) (by omega)).symm, rfl, fun _ _ => by simp [h0],
      fun j hj => ?_, fun _ => rfl⟩
    simp [taken, h0] at hj
  · have hdb := c.dbit_le_bits
    rw [hp] at hph
    rw [if_neg (by omega), if_neg (by omega)] at he
    have hbits := bits_shiftIn hv h1 h2 hb
    rw [← hrx h1] at hbits
    have hlast : (st.nReg.setWidth 32 == c.dbit.setWidth 32 - 1) = true ↔ k = c.dbit.toNat := by
      rw [eq_sub_one_iff _ _ (by decide) (by decide), hn h1 h2]
      omega
    by_cases hkd : k = c.dbit.toNat
    · simp only [next, hph, ht, he, hlast.mpr hkd, if_true]
      exact ⟨hkd ▸ Settings.after_data, rfl, fun _ _ => by omega, hbits, fun _ => hf h1⟩
    · simp only [next, hph, ht, he, mt hlast.mp hkd, if_true, Bool.false_eq_true, if_false]
      refine ⟨(Settings.slotPhase_data (by omega) (by omega)).symm, rfl, fun _ _ => ?_, hbits,
        fun _ => hf h1⟩
      rw [toNat_succ (by rw [hn h1 h2]; omega), hn h1 h2]
      omega
  · -- the parity bit; no data bit is taken
    rw [hp] at hph
    rw [if_neg (by omega), if_neg (by omega)] at he
    have htk : taken c (k + 1) = taken c k := by unfold taken; omega
    simp only [next, hph, ht, he, if_true]
    refine ⟨?_, rfl, fun _ _ => by omega, ?_, fun _ => hf (by omega)⟩
    · rw [h1]; exact Settings.slotPhase_stop.symm
    · rw [htk]; exact hb
  · omega

lemma next_last (hv : c.Valid) (h : At c x k s st) (hk : k = c.bits + 1)
    (ht : i.sTick = true) (hs : s + 1 = c.rxDur k) :
    (next c st i).stateReg = .idle ∧ (next c st i).eFrameReg = !i.rx := by
  obtain ⟨hph, hsr, -, -, -⟩ := h
  have he := (slotEnd_iff hv hsr).mpr hs
  unfold slotEnd at he
  rw [if_neg (by omega), if_pos hk] at he
  rw [hk, Settings.slotPhase_stop] at hph
  simp only [next, hph, ht, he, if_true, and_self]

lemma rxDoneTick_iff (hv : c.Valid) (h : At c x k s st) (hk : k < c.bits + 2) :
    rxDoneTick c st i = true ↔ k = c.bits + 1 ∧ i.sTick = true ∧ s + 1 = c.rxDur k := by
  obtain ⟨hph, hsr, -, -, -⟩ := h
  have he := slotEnd_iff (k := k) hv hsr
  have hd := c.dbit_le_bits
  unfold slotEnd at he
  rcases c.slot_cases 0 hk with ⟨h0, hp, -⟩ | ⟨-, h2, hp, -⟩ | ⟨-, h1, -, hp, -⟩ | ⟨h0, hp, -⟩
  · have : k ≠ c.bits + 1 := by omega
    simp [rxDoneTick, hph, hp, this]
  · have : k ≠ c.bits + 1 := by omega
    simp [rxDoneTick, hph, hp, this]
  · have : k ≠ c.bits + 1 := by omega
    simp [rxDoneTick, hph, hp, this]
  · rw [if_neg (by omega), if_pos h0] at he
    rw [← he, rxDoneTick, hph, hp]
    simp [h0]

lemma dout_eq (hv : c.Valid) (h : At c x (c.bits + 1) s st) {byte : BitVec 8}
    (hx : ∀ j < c.dbit.toNat, x (j + 1) = byte.getLsbD j) : dout c st = c.lowBits byte := by
  have hb := h.bits
  have htk : taken c (c.bits + 1) = c.dbit.toNat := by
    have := c.dbit_le_bits
    unfold taken
    omega
  rw [htk] at hb
  refine BitVec.eq_of_getLsbD_eq fun j hj => ?_
  unfold Settings.lowBits dout
  rw [BitVec.getLsbD_setWidth, BitVec.getLsbD_setWidth]
  rcases hv.dbit with hd | hd
  · have hdn : c.dbit.toNat = 7 := by rw [hd]; rfl
    rw [hdn] at hb hx ⊢
    rw [if_pos (by simp [hd]), BitVec.getLsbD_ushiftRight]
    by_cases hj7 : j < 7
    · rw [hb j hj7, hx j hj7]; simp [hj, hj7]
    · rw [BitVec.getLsbD_of_ge _ _ (by omega)]; simp [hj7]
  · have hdn : c.dbit.toNat = 8 := by rw [hd]; rfl
    rw [hdn] at hb hx ⊢
    have := hb j hj
    rw [if_neg (by simp [hd]), if_pos (by simp [hd])]
    simp only [Nat.sub_self, Nat.zero_add] at this
    rw [this, hx j hj]
    simp [hj]

end Blastit.Rtl.UartRx
