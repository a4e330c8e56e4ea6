import Blastit.Rtl.ModMCounter
import Blastit.Rtl.Pwm
import Mathlib.Logic.Function.Basic

/-!
`sseg.v` and `sseg_array.v`: seven-segment digits that share their segment lines, driven one
at a time.

What the array is for is said by `Shown`, a map from digits to what was last written to
them; the register file holds its encoding. The scan index wraps on a compare with
`SSEG_N`, or of its own accord when `SSEG_N` is one more than it can hold.
-/

namespace Blastit.Rtl

open Blastit.Lib.Clocked Blastit.Lib.Sizing

/-- What is written to a digit. -/
structure Digit where
  en : Bool
  sign : Bool
  dp : Bool
  val : BitVec 4
  deriving DecidableEq, Repr

def segments (num : BitVec 4) : BitVec 7 :=
  match num with
  | 0x0 => 0b0111111
  | 0x1 => 0b0000110
  | 0x2 => 0b1011011
  | 0x3 => 0b1001111
  | 0x4 => 0b1100110
  | 0x5 => 0b1101101
  | 0x6 => 0b1111101
  | 0x7 => 0b0000111
  | 0x8 => 0b1111111
  | 0x9 => 0b1101111
  | 0xa => 0b1110111
  | 0xb => 0b1111100
  | 0xc => 0b1011000
  | 0xd => 0b1011110
  | 0xe => 0b1111001
  | 0xf => 0b1110001
  | _ => 0b1010011

/-- `sseg`: `{ dp & en, sseg }`. -/
def sseg (d : Digit) : BitVec 8 :=
  BitVec.cons (d.dp && d.en) (if !d.en then 0 else if d.sign then 0b1000000 else segments d.val)

namespace SsegArray

structure Params where
  ssegBits : ℕ
  ssegN : ℕ
  pwmBits : ℕ
  ledPeriodBits : ℕ

/-- The digits can be addressed. -/
structure Params.Fits (p : Params) : Prop where
  pos : 0 < p.ssegN
  le : p.ssegN ≤ 2 ^ p.ssegBits

variable {p : Params}

/-- `ssegArrReg` is the register file, a word for each index below `SSEG_N`. -/
structure State (p : Params) where
  ssegArrReg : ℕ → BitVec 8
  oeIReg : BitVec p.ssegBits
  pwm1 : Pwm.State p.pwmBits
  tickCounter : ModMCounter.State p.ledPeriodBits

structure In (p : Params) where
  wr : Bool
  brightness : BitVec p.pwmBits
  sel : BitVec p.ssegBits
  ledPeriod : BitVec p.ledPeriodBits
  digit : Digit

/-- The registers after `reset`; the register file is not reset. -/
def reset (s : State p) : State p :=
  { s with oeIReg := 0, pwm1 := Pwm.reset, tickCounter := ModMCounter.reset }

def ledTick (s : State p) : Bool := ModMCounter.maxTick s.tickCounter

/-- The index one LED tick later, and `done_tick`. -/
def advance (s : State p) : BitVec p.ssegBits × Bool :=
  if (s.oeIReg + 1).toNat = p.ssegN then (0, true) else (s.oeIReg + 1, false)

def doneTick (s : State p) : Bool := ledTick s && (advance s).2

def next (s : State p) (i : In p) : State p where
  ssegArrReg :=
    if i.wr && decide (i.sel.toNat < p.ssegN) then
      Function.update s.ssegArrReg i.sel.toNat (sseg i.digit)
    else s.ssegArrReg
  oeIReg := if ledTick s then (advance s).1 else s.oeIReg
  pwm1 := Pwm.next s.pwm1
  tickCounter := ModMCounter.next s.tickCounter i.ledPeriod

def curSseg (s : State p) : BitVec 8 := s.ssegArrReg s.oeIReg.toNat

/-- The shift is as wide as its widest operand, an integer or the output. -/
def curOe (s : State p) : BitVec p.ssegN :=
  if 0 < curSseg s then
    (BitVec.setWidth p.ssegN ((1 : BitVec (max 32 p.ssegN)) <<< s.oeIReg.toNat))
  else 0

/-- `{ oe, o_sseg }`. -/
def lines (s : State p) (i : In p) : BitVec (p.ssegN + 8) :=
  Pwm.out s.pwm1 i.brightness (curOe s ++ curSseg s)

def oe (s : State p) (i : In p) : BitVec p.ssegN := (lines s i).extractLsb' 8 p.ssegN

def oSseg (s : State p) (i : In p) : BitVec 8 := (lines s i).extractLsb' 0 8

/-! ### The outputs -/

lemma curOe_getLsbD {s : State p} {k : ℕ} :
    (curOe s).getLsbD k = true ↔ 0 < curSseg s ∧ k < p.ssegN ∧ k = s.oeIReg.toNat := by
  have h1 : ∀ j, (1 : BitVec (max 32 p.ssegN)).getLsbD j = decide (j = 0) := fun j => by
    simp [BitVec.getLsbD_one]
  unfold curOe
  split
  · next hpos =>
    rw [BitVec.getLsbD_setWidth, BitVec.getLsbD_shiftLeft, h1]
    simp only [hpos, true_and, Bool.and_eq_true, Bool.not_eq_true', decide_eq_true_eq,
      decide_eq_false_iff_not]
    omega
  · next hpos =>
    constructor
    · intro h
      simp at h
    · rintro ⟨h, -⟩
      exact absurd h hpos

lemma oe_iff (s : State p) (i : In p) (k : ℕ) :
    (oe s i).getLsbD k = true ↔
      Pwm.passes s.pwm1 i.brightness = true ∧ 0 < curSseg s ∧ k < p.ssegN ∧ k = s.oeIReg.toNat := by
  unfold oe lines Pwm.out
  rw [BitVec.getLsbD_extractLsb']
  split
  · next hp =>
    rw [BitVec.getLsbD_append, if_neg (by omega), Nat.add_sub_cancel_left, Bool.and_eq_true,
      curOe_getLsbD, decide_eq_true_eq]
    tauto
  · next hp => simp [hp]

lemma oSseg_eq {s : State p} {i : In p} (h : Pwm.passes s.pwm1 i.brightness = true) :
    oSseg s i = curSseg s := by
  unfold oSseg lines Pwm.out
  rw [if_pos h]
  exact BitVec.extractLsb'_append_eq_right

/-! ### The scan -/

/-- The scan stands on a digit. -/
def Scans (s : State p) : Prop := s.oeIReg.toNat < p.ssegN

lemma scans_reset (hp : p.Fits) (s : State p) : Scans (reset s) := by
  have := hp.pos
  simp only [Scans, reset]
  simpa using this

lemma Scans.next {s : State p} (hp : p.Fits) (h : Scans s) (i : In p) : Scans (next s i) := by
  have hlt : s.oeIReg.toNat < p.ssegN := h
  have hpos := hp.pos
  simp only [Scans, SsegArray.next, advance]
  split_ifs with _ hw
  · simpa using hpos
  · rcases Nat.lt_or_ge (s.oeIReg.toNat + 1) (2 ^ p.ssegBits) with hroom | hwrap
    · rw [toNat_succ hroom] at hw ⊢
      omega
    · rw [toNat_wrap hwrap]
      exact hpos
  · exact hlt

/-! ### What the digits show -/

/-- What was last written to each digit. -/
abbrev Shown := ℕ → Option Digit

/-- A clock of the map. -/
def store (m : Shown) (i : In p) : Shown :=
  if i.wr then Function.update m i.sel.toNat (some i.digit) else m

/-- The register file holds the encoding of what was written. -/
def Encodes (m : Shown) (s : State p) : Prop :=
  ∀ k < p.ssegN, ∀ d, m k = some d → s.ssegArrReg k = sseg d

/-- **One clock of the array is one clock of the map.** -/
lemma Encodes.next {m : Shown} {s : State p} (h : Encodes m s) (i : In p) :
    Encodes (store m i) (next s i) := by
  intro k hk d hd
  simp only [SsegArray.next, store] at hd ⊢
  cases hw : i.wr with
  | false =>
    simp only [hw, Bool.false_eq_true, if_false, Bool.false_and] at hd ⊢
    exact h k hk d hd
  | true =>
    simp only [hw, if_true, Bool.true_and, decide_eq_true_eq] at hd ⊢
    by_cases hsel : i.sel.toNat = k
    · subst hsel
      rw [Function.update_self, Option.some.injEq] at hd
      rw [if_pos hk, Function.update_self, hd]
    · rw [Function.update_of_ne (Ne.symm hsel)] at hd
      split
      · rw [Function.update_of_ne (Ne.symm hsel)]
        exact h k hk d hd
      · exact h k hk d hd

lemma Encodes.exec {m : Shown} {s : State p} (h : Encodes m s) (ins : ℕ → In p) (t : ℕ) :
    Encodes (exec store m ins t) (exec SsegArray.next s ins t) := by
  induction t with
  | zero => exact h
  | succ t ih => exact ih.next (ins t)

lemma encodes_none (s : State p) : Encodes (fun _ => none) s := by
  intro k _ d hd
  cases hd

/-! ### Runs from reset -/

variable (s : State p) (ins : ℕ → In p)

abbrev run (t : ℕ) : State p := exec next (reset s) ins t

abbrev shown (t : ℕ) : Shown := exec store (fun _ => none) ins t

lemma scans_run (hp : p.Fits) (t : ℕ) : Scans (run s ins t) :=
  exec_inv_all (scans_reset hp s) (fun _ i h => h.next hp i) t

lemma encodes_run (t : ℕ) : Encodes (shown ins t) (run s ins t) :=
  (encodes_none (reset s)).exec ins t

/-- At clock `t` the scan stands on a digit of the register file, at most one digit is
driven, and it shows what was last written to it. -/
structure Shows (t : ℕ) : Prop where
  inside : Scans (run s ins t)
  once : ∀ j k, (oe (run s ins t) (ins t)).getLsbD j = true →
    (oe (run s ins t) (ins t)).getLsbD k = true → j = k
  index : ∀ k, (oe (run s ins t) (ins t)).getLsbD k = true → k < p.ssegN
  own : ∀ k, (oe (run s ins t) (ins t)).getLsbD k = true →
    oSseg (run s ins t) (ins t) ≠ 0 ∧
      ∃ d, shown ins t k = some d ∧ oSseg (run s ins t) (ins t) = sseg d

/-- **The digits show what was written to them**, once all have been written, at every clock
after a reset. -/
theorem shows_of_written (hp : p.Fits) {t : ℕ}
    (hall : ∀ k < p.ssegN, (shown ins t k).isSome = true) : Shows s ins t where
  inside := scans_run s ins hp t
  once j k hj hk := by
    rw [oe_iff] at hj hk
    exact hj.2.2.2.trans hk.2.2.2.symm
  index k hk := by
    rw [oe_iff] at hk
    exact hk.2.2.1
  own k hk := by
    rw [oe_iff] at hk
    obtain ⟨hpass, hlit, hlt, hidx⟩ := hk
    have hcur : oSseg (run s ins t) (ins t) = (run s ins t).ssegArrReg k := by
      rw [oSseg_eq hpass, curSseg, hidx]
    obtain ⟨d, hd⟩ := Option.isSome_iff_exists.mp (hall k hlt)
    refine ⟨?_, d, hd, ?_⟩
    · rw [oSseg_eq hpass]
      intro h0
      rw [h0] at hlit
      exact absurd hlit (by decide)
    · rw [hcur]
      exact encodes_run s ins t k hlt d hd

end SsegArray

end Blastit.Rtl
