import Blastit.Rtl.UartRx

/-!
The flag `e_parity` of the receiver, on any line.

The data bits are shifted in from the top, so with seven of them the register still holds the
last data bit of the frame before at the bottom. The parity is computed over the low seven bits
all the same: that bit counts, and the last data bit of the frame does not.
-/

namespace Blastit.Rtl.UartRx

open Blastit.Lib.Clocked Blastit.Lib.Sizing Blastit.Rtl.UartFrame

/-! ### What the receiver samples -/

def samplesParity (c : Settings) (s : State) (i : In) : Bool :=
  s.stateReg == .parity && i.sTick && s.sReg.setWidth 32 == c.osTick.setWidth 32 - 1

/-- The clock on which the last data bit of a frame is sampled. -/
def samplesLast (c : Settings) (s : State) (i : In) : Bool :=
  s.stateReg == .data && i.sTick && s.sReg.setWidth 32 == c.osTick.setWidth 32 - 1 &&
    s.nReg.setWidth 32 == c.dbit.setWidth 32 - 1

abbrev run (c : Settings) (ins : ℕ → In) (t : ℕ) : State := exec (next c) reset ins t

/-- What the line showed on the last clock before `t` that samples; low if there is none. -/
def lastSample (samples : State → In → Bool) (c : Settings) (ins : ℕ → In) : ℕ → Bool
  | 0 => false
  | t + 1 => if samples (run c ins t) (ins t) then (ins t).rx else lastSample samples c ins t

def parityBit (c : Settings) : (ℕ → In) → ℕ → Bool := lastSample (samplesParity c) c

def lastBit (c : Settings) : (ℕ → In) → ℕ → Bool := lastSample (samplesLast c) c

/-- `e_parity` says whether the parity bit differs from the parity of the data. -/
def FlagRight (c : Settings) (ins : ℕ → In) (t : ℕ) : Prop :=
  eParity (run c ins t) = true ↔ parityBit c ins t ≠ c.parityOf (dout c (run c ins t))

/-! ### One clock -/

/-- What a clock can do: count ticks, or go on in the frame. The flags say whether it samples
the parity bit or the last data bit, and whether it ends the frame. -/
inductive Move (c : Settings) (s : State) (i : In) : Bool → Bool → Bool → State → Prop
  | keep (q : BitVec 8) : Move c s i false false false { s with sReg := q }
  | start (h : s.stateReg = .idle) :
    Move c s i false false false { s with stateReg := .start, sReg := 0 }
  | data (h : s.stateReg = .start) :
    Move c s i false false false
      { s with stateReg := .data, eParityReg := false, eFrameReg := false, sReg := 0, nReg := 0 }
  | bit (h : s.stateReg = .data) (hn : s.nReg.toNat + 1 ≠ c.dbit.toNat) :
    Move c s i false false false
      { s with sReg := 0, bReg := shiftIn i.rx s.bReg, nReg := s.nReg + 1 }
  | last (h : s.stateReg = .data) (hn : s.nReg.toNat + 1 = c.dbit.toNat) :
    Move c s i false true false
      { s with
        sReg := 0, bReg := shiftIn i.rx s.bReg, nReg := 0
        stateReg := if c.pbit != 0 then .parity else .stop
        eParityReg := if c.pbit != 0 then s.eParityReg else false }
  | parity (h : s.stateReg = .parity) :
    Move c s i true false false
      { s with
        eParityReg := parityCalculator s.bReg c.dbit c.pbit != i.rx
        sReg := 0, nReg := 0, stateReg := .stop }
  | stop (h : s.stateReg = .stop) :
    Move c s i false false true
      { s with eFrameReg := !i.rx, sReg := 0, nReg := 0, stateReg := .idle }

section
variable {c : Settings} {s s' : State} {i : In} {p l d : Bool}

lemma move_next (c : Settings) (s : State) (i : In) :
    Move c s i (samplesParity c s i) (samplesLast c s i) (rxDoneTick c s i) (next c s i) := by
  obtain ⟨state, sReg, nReg, bReg, eParityReg, eFrameReg⟩ := s
  obtain ⟨rx, sTick⟩ := i
  have hlast : (nReg.setWidth 32 == c.dbit.setWidth 32 - 1) = true ↔
      nReg.toNat + 1 = c.dbit.toNat := eq_sub_one_iff _ _ (by decide) (by decide)
  cases state <;> simp only [next, samplesParity, samplesLast, rxDoneTick]
  case idle =>
    cases rx with
    | false => exact .start rfl
    | true => exact .keep sReg
  all_goals cases sTick
  case start.false => exact .keep sReg
  case data.false => exact .keep sReg
  case parity.false => exact .keep sReg
  case stop.false => exact .keep sReg
  case start.true =>
    by_cases hs : (sReg.setWidth 32 == (c.osTick.setWidth 32 - 1) >>> 1) = true
    · rw [if_pos rfl, if_pos hs]
      exact .data rfl
    · rw [if_pos rfl, if_neg hs]
      exact .keep _
  case data.true =>
    by_cases hs : (sReg.setWidth 32 == c.osTick.setWidth 32 - 1) = true
    · by_cases hn : (nReg.setWidth 32 == c.dbit.setWidth 32 - 1) = true
      · rw [if_pos rfl, if_pos hs, if_pos hn, hs, hn]
        exact .last rfl (hlast.mp hn)
      · rw [if_pos rfl, if_pos hs, if_neg hn, hs, Bool.eq_false_of_not_eq_true hn]
        exact .bit rfl (mt hlast.mpr hn)
    · rw [if_pos rfl, if_neg hs, Bool.eq_false_of_not_eq_true hs]
      exact .keep _
  case parity.true =>
    by_cases hs : (sReg.setWidth 32 == c.osTick.setWidth 32 - 1) = true
    · rw [if_pos rfl, if_pos hs, hs]
      exact .parity rfl
    · rw [if_pos rfl, if_neg hs, Bool.eq_false_of_not_eq_true hs]
      exact .keep _
  case stop.true =>
    by_cases hs : (sReg.setWidth 32 == c.sbTick.setWidth 32 - 1) = true
    · rw [if_pos rfl, if_pos hs, hs]
      exact .stop rfl
    · rw [if_pos rfl, if_neg hs, Bool.eq_false_of_not_eq_true hs]
      exact .keep _

/-! ### The registers -/

variable {parity last : Bool}

/-- What is kept of the samples: the last data bit at the top of the register, the parity bit
in the flag. -/
structure Kept (c : Settings) (parity last : Bool) (s : State) : Prop where
  count : s.stateReg = .data → s.nReg.toNat + 1 ≤ c.dbit.toNat
  top : s.stateReg = .parity ∨ s.stateReg = .stop → s.bReg.getLsbD 7 = last
  flag : s.stateReg = .stop → s.eParityReg = (parityCalculator s.bReg c.dbit c.pbit != parity)

/-- The bit left over from the frame before, where it is by now. -/
def leftover (s : State) : Bool :=
  match s.stateReg with
  | .idle | .start => s.bReg.getLsbD 7
  | .data => s.bReg.getLsbD (7 - s.nReg.toNat)
  | .parity | .stop => s.bReg.getLsbD 0

lemma Kept.move (hd1 : 1 ≤ c.dbit.toNat) (hd8 : c.dbit.toNat ≤ 8) (hp : c.pbit ≠ 0)
    (h : Kept c parity last s) (hm : Move c s i p l d s') :
    Kept c (if p then i.rx else parity) (if l then i.rx else last) s' := by
  obtain ⟨hcount, htop, hflag⟩ := h
  cases hm with
  | keep q => exact ⟨hcount, htop, hflag⟩
  | start h => exact ⟨by simp, by simp, by simp⟩
  | data h => exact ⟨by simpa using hd1, by simp, by simp⟩
  | bit h hn =>
    have hlt := hcount h
    have hadd : (s.nReg + 1).toNat = s.nReg.toNat + 1 := toNat_succ (by omega)
    refine ⟨fun _ => ?_, by simp [h], by simp [h]⟩
    rw [hadd]
    omega
  | last h hn =>
    have h7 := shiftIn_getLsbD i.rx s.bReg (show 7 < 8 by decide)
    have hp' : (c.pbit != 0) = true := by simpa using hp
    rw [if_pos rfl] at h7
    simp only [hp', if_true]
    exact ⟨nofun, fun _ => h7, nofun⟩
  | parity h => exact ⟨by simp, by simpa using htop (Or.inl h), by simp⟩
  | stop h => exact ⟨by simp, by simp, by simp⟩

/-- With seven data bits the bit left over stays until the frame ends. -/
lemma leftover_move (hd : c.dbit.toNat = 7) (hk : Kept c parity last s)
    (hm : Move c s i p l d s') : leftover s' = if d then s.bReg.getLsbD 7 else leftover s := by
  cases hm with
  | keep q => rfl
  | start h => simp [leftover, h]
  | data h => simp [leftover, h]
  | bit h hn =>
    have hlt := hk.count h
    have hadd : (s.nReg + 1).toNat = s.nReg.toNat + 1 := toNat_succ (by omega)
    have hbit := shiftIn_getLsbD i.rx s.bReg (show 7 - (s.nReg.toNat + 1) < 8 by omega)
    rw [if_neg (by omega), show 7 - (s.nReg.toNat + 1) + 1 = 7 - s.nReg.toNat by omega] at hbit
    rw [if_neg Bool.false_ne_true]
    simpa only [leftover, h, hadd] using hbit
  | last h hn =>
    have hbit := shiftIn_getLsbD i.rx s.bReg (show 0 < 8 by decide)
    have h1 : 7 - s.nReg.toNat = 1 := by omega
    rw [if_neg (by decide)] at hbit
    cases hp : (c.pbit != 0) <;> simpa [leftover, h, h1] using hbit
  | parity h => simp [leftover, h]
  | stop h => simp [leftover]

end

/-! ### Runs from reset -/

section
variable {c : Settings} {ins : ℕ → In} {t T : ℕ}

lemma kept_run (hd1 : 1 ≤ c.dbit.toNat) (hd8 : c.dbit.toNat ≤ 8) (hp : c.pbit ≠ 0) (t : ℕ) :
    Kept c (parityBit c ins t) (lastBit c ins t) (run c ins t) := by
  induction t with
  | zero => exact ⟨nofun, by simp [run, reset], nofun⟩
  | succ t ih => exact ih.move hd1 hd8 hp (move_next c (run c ins t) (ins t))

lemma leftover_succ (hd : c.dbit.toNat = 7) (hp : c.pbit ≠ 0) (t : ℕ) :
    leftover (run c ins (t + 1)) =
      if rxDoneTick c (run c ins t) (ins t) then (run c ins t).bReg.getLsbD 7
      else leftover (run c ins t) :=
  leftover_move hd (kept_run (by omega) (by omega) hp t) (move_next c (run c ins t) (ins t))

lemma stop_of_done {s : State} {i : In} (h : rxDoneTick c s i = true) : s.stateReg = .stop := by
  simp only [rxDoneTick, Bool.and_eq_true, beq_iff_eq] at h
  exact h.1.1

lemma flagRight_iff (hd1 : 1 ≤ c.dbit.toNat) (hd8 : c.dbit.toNat ≤ 8) (hp : c.pbit ≠ 0)
    (hdone : rxDoneTick c (run c ins t) (ins t) = true) :
    FlagRight c ins t ↔ parityCalculator (run c ins t).bReg c.dbit c.pbit =
      c.parityOf (dout c (run c ins t)) := by
  have hflag : (run c ins t).eParityReg =
      (parityCalculator (run c ins t).bReg c.dbit c.pbit ^^ parityBit c ins t) :=
    (kept_run hd1 hd8 hp t).flag (stop_of_done hdone)
  rw [FlagRight, eParity, hflag]
  cases parityCalculator (run c ins t).bReg c.dbit c.pbit <;> cases parityBit c ins t <;>
    cases c.parityOf (dout c (run c ins t)) <;> simp

lemma parity_eight (hd : c.dbit = 8) (hp : c.pbit = 1 ∨ c.pbit = 2) (s : State) :
    parityCalculator s.bReg c.dbit c.pbit = c.parityOf (dout c s) := by
  have hdout : dout c s = s.bReg := by simp [dout, hd]
  rw [hdout, Settings.parityCalculator_eq (Or.inr hd) hp]

lemma xorReduce_shift (b : BitVec 8) (n : ℕ) :
    (b.getLsbD 0 ^^ xorReduce (b >>> 1) n) = xorReduce b (n + 1) := by
  induction n with
  | zero => simp [xorReduce_succ]
  | succ n ih =>
    rw [xorReduce_succ, ← Bool.xor_assoc, ih, xorReduce_succ b (n + 1), BitVec.getLsbD_ushiftRight,
      Nat.add_comm 1 n]

lemma parity_seven (hd : c.dbit = 7) (hp : c.pbit = 1 ∨ c.pbit = 2) (s : State) :
    parityCalculator s.bReg c.dbit c.pbit = c.parityOf (dout c s) ↔
      s.bReg.getLsbD 0 = s.bReg.getLsbD 7 := by
  have hdout : dout c s = s.bReg >>> 1 := by simp [dout, hd]
  have hxor : (s.bReg.getLsbD 0 ^^ xorReduce (s.bReg >>> 1) 7) =
      (xorReduce s.bReg 7 ^^ s.bReg.getLsbD 7) := by
    rw [xorReduce_shift, xorReduce_succ]
  have hcalc : ∀ data, parityCalculator data c.dbit c.pbit =
      (xorReduce data 7 ^^ decide (c.pbit = 2)) := by
    intro data
    rcases hp with hp | hp <;> simp [parityCalculator, hd, hp]
  rw [hdout, ← Settings.parityCalculator_eq (Or.inl hd) hp, hcalc, hcalc]
  -- a sum of bits, up to the two at the ends
  generalize decide (c.pbit = 2) = b
  generalize xorReduce (s.bReg >>> 1) 7 = x at hxor ⊢
  generalize xorReduce s.bReg 7 = y at hxor ⊢
  generalize s.bReg.getLsbD 0 = z at hxor ⊢
  generalize s.bReg.getLsbD 7 = w at hxor ⊢
  revert b x y z w
  decide

/-- The run lemma: with seven data bits, the flag is right as long as the last data bit of every
frame is low, and then the bit left over is low. -/
lemma flags_seven (hd : c.dbit = 7) (hp : c.pbit = 1 ∨ c.pbit = 2) (T : ℕ) :
    ((∀ t < T, rxDoneTick c (run c ins t) (ins t) = true → FlagRight c ins t) ↔
      ∀ t < T, rxDoneTick c (run c ins t) (ins t) = true → lastBit c ins t = false) ∧
    ((∀ t < T, rxDoneTick c (run c ins t) (ins t) = true → lastBit c ins t = false) →
      leftover (run c ins T) = false) := by
  have hd7 : c.dbit.toNat = 7 := by simp [hd]
  have hp0 : c.pbit ≠ 0 := by rcases hp with hp | hp <;> simp [hp]
  induction T with
  | zero => exact ⟨by simp, fun _ => by simp [run, reset, leftover]⟩
  | succ T ih =>
    obtain ⟨hiff, hleft⟩ := ih
    simp only [Nat.forall_lt_succ_right]
    rw [leftover_succ hd7 hp0]
    by_cases hdone : rxDoneTick c (run c ins T) (ins T) = true
    · have hstop := stop_of_done hdone
      have htop : (run c ins T).bReg.getLsbD 7 = lastBit c ins T :=
        (kept_run (by omega) (by omega) hp0 T).top (Or.inr hstop)
      have hflag := (flagRight_iff (by omega) (by omega) hp0 hdone).trans (parity_seven hd hp _)
      rw [htop] at hflag
      simp only [hdone, forall_const, if_true, htop]
      refine ⟨?_, fun h => h.2⟩
      rw [hiff]
      refine and_congr_right fun hlow => ?_
      have hzero : (run c ins T).bReg.getLsbD 0 = false := by
        simpa [leftover, hstop] using hleft hlow
      rw [hflag, hzero]
      exact eq_comm
    · simp only [hdone, false_implies, and_true, if_false, Bool.false_eq_true]
      exact ⟨hiff, hleft⟩

/-- **The flag is right exactly with eight data bits, or as long as the last data bit is low.**
On any line, in a run from reset: `e_parity` is right at the end of every frame if and only if
there are eight data bits, or the last data bit of every frame is low. -/
theorem parity_right_iff (hd : c.dbit = 7 ∨ c.dbit = 8) (hp : c.pbit = 1 ∨ c.pbit = 2)
    (ins : ℕ → In) (T : ℕ) :
    (∀ t < T, rxDoneTick c (run c ins t) (ins t) = true → FlagRight c ins t) ↔
      c.dbit = 8 ∨
        ∀ t < T, rxDoneTick c (run c ins t) (ins t) = true → lastBit c ins t = false := by
  have hp0 : c.pbit ≠ 0 := by rcases hp with hp | hp <;> simp [hp]
  rcases hd with hd | hd
  · rw [(flags_seven hd hp T).1]
    simp [hd]
  · refine iff_of_true (fun t _ hdone => ?_) (Or.inl hd)
    have hd8 : c.dbit.toNat = 8 := by simp [hd]
    exact (flagRight_iff (by omega) (by omega) hp0 hdone).mpr (parity_eight hd hp _)

end

/-- Seven data bits, even parity, and a tick for each bit. -/
def sevenEven : Settings := ⟨7, 1, 1, 1⟩

/-- A frame of six zeros and a one, with its parity bit. -/
def frameOf64 (t : ℕ) : In := ⟨8 ≤ t, true⟩

theorem parity_right_at_64 :
    (∀ t < 11, rxDoneTick sevenEven (run sevenEven frameOf64 t) (frameOf64 t) = true →
        FlagRight sevenEven frameOf64 t) ↔
      sevenEven.dbit = 8 ∨ ∀ t < 11,
        rxDoneTick sevenEven (run sevenEven frameOf64 t) (frameOf64 t) = true →
          lastBit sevenEven frameOf64 t = false :=
  parity_right_iff (Or.inl rfl) (Or.inl rfl) frameOf64 11

/-- The frame ends with the right data and the right parity bit, and the flag is raised. -/
theorem parity_wrong_at_64 :
    rxDoneTick sevenEven (run sevenEven frameOf64 10) (frameOf64 10) = true ∧
      dout sevenEven (run sevenEven frameOf64 10) = 64 ∧
      parityBit sevenEven frameOf64 10 = sevenEven.parityOf 64 ∧
      ¬ FlagRight sevenEven frameOf64 10 := by
  unfold FlagRight
  decide

end Blastit.Rtl.UartRx
