import Blastit.Lib.Clocked
import Blastit.Lib.Decimal
import Blastit.Lib.Sizing
import Mathlib.Data.BitVec
import Mathlib.Tactic.IntervalCases

/-!
`bin2bcd.v`: binary to decimal, one bit at a time.

The shift register has `3 * BCD_N + 1` bits whatever `BIN_N` is, and the counter of the
passes has `BCD_N` bits, too few for `3 * BCD_N + 1` when `BCD_N` is less than four. So the
digits are those of the bits the passes get to, of what the shift register could take.
-/

namespace Blastit.Rtl.Bin2bcd

open Blastit.Lib.Clocked Blastit.Lib.Decimal Blastit.Lib.Sizing

structure Params where
  bcdN : ℕ
  binN : ℕ

inductive Phase
  | idle | op | done
  deriving DecidableEq

variable (p : Params)

/-- `bcdReg` is the register file, a digit for each index below `BCD_N`. -/
structure State where
  stateReg : Phase
  p2sReg : BitVec (p.bcdN * 3 + 1)
  nReg : BitVec p.bcdN
  bcdReg : ℕ → BitVec 4

structure In where
  start : Bool
  sign : Bool
  bin : BitVec p.binN

variable {p}

/-- What a start loads: the input or its complement, at the width of the widest operand, cut
to the shift register. -/
def loaded (i : In p) : BitVec (p.bcdN * 3 + 1) :=
  let wide := i.bin.setWidth (max (p.bcdN * 3 + 1) p.binN)
  (if i.sign then ~~~wide + 1 else wide).setWidth (p.bcdN * 3 + 1)

def bcdTmp (s : State p) (g : ℕ) : BitVec 4 :=
  if s.bcdReg g > 4 then s.bcdReg g + 3 else s.bcdReg g

/-- `bcd_next` in the state `op`. -/
def bcdNext (s : State p) : ℕ → BitVec 4
  | 0 => (bcdTmp s 0).extractLsb' 0 3 ++ BitVec.ofBool (s.p2sReg.getLsbD (p.bcdN * 3))
  | i + 1 => (bcdTmp s (i + 1)).extractLsb' 0 3 ++ BitVec.ofBool ((bcdTmp s i).getLsbD 3)

def next (s : State p) (i : In p) : State p :=
  match s.stateReg with
  | .idle =>
    if i.start then
      { stateReg := .op
        p2sReg := loaded i
        nReg := BitVec.ofNat p.bcdN (p.bcdN * 3 + 1)
        bcdReg := fun _ => 0 }
    else s
  | .op =>
    { stateReg := if s.nReg - 1 = 0 then .done else .op
      p2sReg := s.p2sReg <<< 1
      nReg := s.nReg - 1
      bcdReg := bcdNext s }
  | .done => { s with stateReg := .idle }

def reset : State p := ⟨.idle, 0, 0, fun _ => 0⟩

def ready (s : State p) : Bool := s.stateReg == .idle

/-- `bcd`, digit `g` of it. -/
def bcd (s : State p) (g : ℕ) : BitVec 4 := s.bcdReg g

/-! ### The counter -/

/-- The passes of a conversion: the counter starts at `3 * BCD_N + 1`, at its own width, and
goes round if that is zero. -/
def passes (bcdN : ℕ) : ℕ :=
  if (bcdN * 3 + 1) % 2 ^ bcdN = 0 then 2 ^ bcdN else (bcdN * 3 + 1) % 2 ^ bcdN

lemma passes_pos (n : ℕ) : 0 < passes n := by
  have := Nat.two_pow_pos n
  unfold passes
  split <;> omega

/-- From four digits on the counter holds its start. -/
lemma passes_of_le {n : ℕ} (h : 4 ≤ n) : passes n = n * 3 + 1 := by
  have hlt : n * 3 + 1 < 2 ^ n := by
    induction n, h using Nat.le_induction with
    | base => decide
    | succ n _ ih =>
      rw [Nat.pow_succ]
      omega
  rw [passes, Nat.mod_eq_of_lt hlt, if_neg (by omega)]

lemma passes_le {n : ℕ} (h : 1 ≤ n) : passes n ≤ n * 3 + 1 := by
  rcases Nat.lt_or_ge n 4 with hlt | hge
  · interval_cases n <;> decide
  · exact (passes_of_le hge).le

lemma counter_eq_zero_iff {n j : ℕ} (h1 : 1 ≤ j) (hj : j ≤ passes n) :
    BitVec.ofNat n (n * 3 + 1) - BitVec.ofNat n j = 0 ↔ j = passes n := by
  have hlt := Nat.mod_lt (n * 3 + 1) (Nat.two_pow_pos n)
  have hval : BitVec.ofNat n (n * 3 + 1) - BitVec.ofNat n j = 0 ↔
      (n * 3 + 1) % 2 ^ n = j % 2 ^ n := by
    rw [show (0 : BitVec n) = 0#n from rfl, BitVec.sub_eq_iff_eq_add, BitVec.zero_add,
      ← BitVec.toNat_inj, BitVec.toNat_ofNat, BitVec.toNat_ofNat]
  rw [hval]
  unfold passes at hj ⊢
  rcases Nat.lt_or_ge j (2 ^ n) with hj' | hj'
  · rw [Nat.mod_eq_of_lt hj']
    split at hj <;> split <;> omega
  · have hje : j = 2 ^ n := by
      split at hj <;> omega
    rw [hje, Nat.mod_self]
    split <;> omega

/-! ### One pass -/

/-- A digit that is doubled: what is left of it, and what it carries. -/
lemma double_adjusted (d : BitVec 4) (hd : d.toNat < 10) (b : Bool) :
    ((if d > 4 then d + 3 else d).extractLsb' 0 3 ++ BitVec.ofBool b).toNat =
        2 * d.toNat % 10 + b.toNat ∧
      (if d > 4 then d + 3 else d).getLsbD 3 = decide (5 ≤ d.toNat) := by
  revert b d
  decide

def Shows (s : State p) (x : ℕ) : Prop := ∀ g, (bcd s g).toNat = digit x g

lemma Shows.bcdNext {s : State p} {x : ℕ} (h : Shows s x) (g : ℕ) :
    (bcdNext s g).toNat = digit (2 * x + (s.p2sReg.getLsbD (p.bcdN * 3)).toNat) g := by
  have hlt : ∀ g, (s.bcdReg g).toNat < 10 := fun g => (h g).trans_lt (digit_lt x g)
  rw [digit_double (Bool.toNat_le _), ← h g]
  cases g with
  | zero => exact (double_adjusted _ (hlt 0) _).1
  | succ g =>
    have hcarry : ((bcdTmp s g).getLsbD 3).toNat =
        carry x (s.p2sReg.getLsbD (p.bcdN * 3)).toNat (g + 1) := by
      rw [bcdTmp, (double_adjusted _ (hlt g) true).2, carry, ← h g]
      by_cases h5 : 5 ≤ (s.bcdReg g).toNat <;> simp [h5, bcd]
    rw [← hcarry]
    exact (double_adjusted _ (hlt (g + 1)) _).1

/-! ### A conversion -/

variable {L : BitVec (p.bcdN * 3 + 1)} {s : State p} {i : In p} {j : ℕ}

/-- The number in the bits that the first `j` passes get to. -/
def topBits (L : BitVec (p.bcdN * 3 + 1)) (j : ℕ) : ℕ := L.toNat / 2 ^ (p.bcdN * 3 + 1 - j)

lemma topBits_zero (L : BitVec (p.bcdN * 3 + 1)) : topBits L 0 = 0 := Nat.div_eq_of_lt L.isLt

lemma topBits_succ (L : BitVec (p.bcdN * 3 + 1)) (hj : j ≤ p.bcdN * 3) :
    topBits L (j + 1) = 2 * topBits L j + ((L <<< j).getLsbD (p.bcdN * 3)).toNat := by
  have hbit : ((L <<< j).getLsbD (p.bcdN * 3)).toNat = L.toNat / 2 ^ (p.bcdN * 3 - j) % 2 := by
    have hbit' : (L <<< j).getLsbD (p.bcdN * 3) = L.toNat.testBit (p.bcdN * 3 - j) := by
      rw [BitVec.getLsbD_shiftLeft, decide_eq_true (Nat.lt_succ_self _), decide_eq_false (by omega)]
      rfl
    rw [hbit', Nat.toNat_testBit]
  rw [hbit, topBits, topBits, show p.bcdN * 3 + 1 - (j + 1) = p.bcdN * 3 - j by omega,
    show p.bcdN * 3 + 1 - j = p.bcdN * 3 - j + 1 by omega, Nat.pow_succ,
    ← Nat.div_div_eq_div_mul]
  omega

/-- After `j` passes over what was loaded. -/
structure After (L : BitVec (p.bcdN * 3 + 1)) (j : ℕ) (s : State p) : Prop where
  phase : s.stateReg = if j = passes p.bcdN then .done else .op
  p2s : s.p2sReg = L <<< j
  count : s.nReg = BitVec.ofNat p.bcdN (p.bcdN * 3 + 1) - BitVec.ofNat p.bcdN j
  shows : Shows s (topBits L j)

lemma after_start (h : s.stateReg = .idle) (hs : i.start = true) :
    After (loaded i) 0 (next s i) := by
  have hpos := passes_pos p.bcdN
  simp only [next, h, hs, if_true]
  refine ⟨by rw [if_neg (by omega)], by simp, by simp, fun g => ?_⟩
  rw [topBits_zero, digit_zero_left]
  rfl

/-- **One pass.** -/
lemma After.next (hN : 1 ≤ p.bcdN) (h : After L j s) (hj : j < passes p.bcdN) :
    After L (j + 1) (next s i) := by
  obtain ⟨hphase, hp2s, hcount, hshows⟩ := h
  have hle := passes_le hN
  rw [if_neg (by omega)] at hphase
  have hcount' : s.nReg - 1 =
      BitVec.ofNat p.bcdN (p.bcdN * 3 + 1) - BitVec.ofNat p.bcdN (j + 1) := by
    rw [hcount, BitVec.ofNat_add j 1, BitVec.sub_sub]
    rfl
  simp only [Bin2bcd.next, hphase]
  refine ⟨?_, ?_, hcount', fun g => ?_⟩
  · simp only [hcount', counter_eq_zero_iff (show 1 ≤ j + 1 by omega) hj]
  · rw [hp2s, ← BitVec.shiftLeft_add]
  · rw [topBits_succ L (by omega), ← hp2s]
    exact hshows.bcdNext g

lemma After.next_done (h : After L (passes p.bcdN) s) :
    (Bin2bcd.next s i).stateReg = .idle ∧ Shows (Bin2bcd.next s i) (topBits L (passes p.bcdN)) := by
  have hphase := h.phase
  rw [if_pos rfl] at hphase
  simp only [Bin2bcd.next, hphase]
  exact ⟨trivial, h.shows⟩

lemma next_of_idle (hidle : s.stateReg = .idle) (hi : i.start = false) : Bin2bcd.next s i = s := by
  simp [Bin2bcd.next, hidle, hi]

lemma next_of_ne_op {x : ℕ} (hop : s.stateReg ≠ .op) (hs : Shows s x) (hi : i.start = false) :
    (Bin2bcd.next s i).stateReg ≠ .op ∧ Shows (Bin2bcd.next s i) x := by
  cases hstate : s.stateReg with
  | idle =>
    rw [next_of_idle hstate hi]
    exact ⟨hop, hs⟩
  | op => exact absurd hstate hop
  | done =>
    simp only [Bin2bcd.next, hstate]
    exact ⟨Phase.noConfusion, hs⟩

/-! ### Runs -/

/-- A conversion of `L` is going on, or its digits stand. -/
inductive Busy (L : BitVec (p.bcdN * 3 + 1)) (s : State p) : Prop
  | after {j : ℕ} (hj : j ≤ passes p.bcdN) (h : After L j s)
  | rest (h : s.stateReg = .idle) (hs : Shows s (topBits L (passes p.bcdN)))

lemma Busy.next (hN : 1 ≤ p.bcdN) (h : Busy L s) (hi : i.start = true → loaded i = L) :
    Busy L (Bin2bcd.next s i) := by
  cases h with
  | after hj h =>
    rcases Nat.lt_or_eq_of_le hj with hlt | rfl
    · exact .after hlt (h.next hN hlt)
    · obtain ⟨hidle, hs⟩ := h.next_done
      exact .rest hidle hs
  | rest h hs =>
    cases hstart : i.start with
    | true => exact .after (Nat.zero_le _) (hi hstart ▸ after_start h hstart)
    | false =>
      rw [next_of_idle h hstart]
      exact .rest h hs

lemma Busy.shows_of_ready (h : Busy L s) (hr : ready s = true) :
    Shows s (topBits L (passes p.bcdN)) := by
  cases h with
  | after _ h =>
    have hphase := h.phase
    rw [ready, hphase] at hr
    split at hr <;> cases hr
  | rest _ hs => exact hs

/-- The clocks until the machine rests, at most. -/
def toGo (s : State p) : ℕ :=
  match s.stateReg with
  | .idle => 0
  | .op => (s.nReg - 1).toNat + 2
  | .done => 1

lemma exists_idle {ins : ℕ → In p} (hlow : ∀ t, (ins t).start = false) (s : State p) :
    ∃ n, ∀ m, n ≤ m → (exec next s ins m).stateReg = .idle := by
  refine exec_settles (G := fun s : State p => s.stateReg = .idle) toGo
    (fun s i hs (hi : i.start = false) => ?_) (fun s i hs _ => ?_) hlow
  · rw [next_of_idle hs hi]
    exact hs
  · cases hstate : s.stateReg with
    | idle => exact absurd hstate hs
    | op =>
      simp only [toGo, Bin2bcd.next, hstate]
      split_ifs with hzero
      · exact Or.inr (by simp)
      · have hpos : 0 < (s.nReg - 1).toNat := by
          refine Nat.pos_of_ne_zero fun h => hzero (BitVec.eq_of_toNat_eq h)
        refine Or.inr ?_
        show (s.nReg - 1 - 1).toNat + 2 < (s.nReg - 1).toNat + 2
        rw [toNat_pred hpos]
        omega
    | done => exact Or.inl (by simp [Bin2bcd.next, hstate])

/-- A start pulse in the idle state: `done` is reached, and from then on the digits are those
of `x`. -/
def Converts (p : Params) (sign : Bool) (bin : BitVec p.binN) (x : ℕ) : Prop :=
  ∀ (s : State p) (ins : ℕ → In p), s.stateReg = .idle → ins 0 = ⟨true, sign, bin⟩ →
    (∀ t, (ins (t + 1)).start = false) →
    ∃ T, (exec next s ins T).stateReg = .done ∧
      ∀ t, T ≤ t → ∀ g < p.bcdN, (bcd (exec next s ins t) g).toNat = digit x g

section
variable {ins : ℕ → In p} (hN : 1 ≤ p.bcdN) (hidle : s.stateReg = .idle)
  (h0 : (ins 0).start = true) (hlow : ∀ t, (ins (t + 1)).start = false)

include hN hidle h0

lemma exec_after (hj : j ≤ passes p.bcdN) :
    After (loaded (ins 0)) j (exec next s ins (j + 1)) := by
  induction j with
  | zero => exact after_start hidle h0
  | succ j ih => exact (ih (by omega)).next hN hj

include hlow

lemma exec_shows {t : ℕ} (ht : passes p.bcdN + 1 ≤ t) :
    Shows (exec next s ins t) (topBits (loaded (ins 0)) (passes p.bcdN)) := by
  have hlast := exec_after hN hidle h0 (Nat.le_refl _)
  obtain ⟨k, rfl⟩ := Nat.exists_eq_add_of_le ht
  rw [exec_add]
  refine (exec_inv (I := fun s => s.stateReg ≠ .op ∧ Shows s _) ⟨?_, hlast.shows⟩
    (fun s i h (hi : i.start = false) => next_of_ne_op h.1 h.2 hi) k fun u _ => ?_).2
  · rw [hlast.phase, if_pos rfl]
    exact Phase.noConfusion
  · rw [show passes p.bcdN + 1 + u = passes p.bcdN + u + 1 by omega]
    exact hlow _

end

/-- **A conversion** is right exactly when the bits it gets to make the number. -/
theorem converts_iff {sign : Bool} {bin : BitVec p.binN} {x : ℕ} (hN : 1 ≤ p.bcdN)
    (hx : x < 10 ^ p.bcdN) : Converts p sign bin x ↔
      topBits (loaded ⟨true, sign, bin⟩) (passes p.bcdN) % 10 ^ p.bcdN = x := by
  rw [← digits_eq_iff hx]
  constructor
  · intro h g hg
    let s : State p := ⟨.idle, 0, 0, fun _ => 0⟩
    let ins : ℕ → In p := fun t => ⟨t == 0, sign, bin⟩
    obtain ⟨T, -, hT⟩ := h s ins rfl rfl fun t => rfl
    have hshows : Shows (exec next s ins (T + (passes p.bcdN + 1))) _ :=
      exec_shows hN rfl rfl (fun _ => rfl) (by omega)
    rw [← hT (T + (passes p.bcdN + 1)) (by omega) g hg]
    exact (hshows g).symm
  · intro h s ins hidle h0 hlow
    have hstart : (ins 0).start = true := by rw [h0]
    refine ⟨passes p.bcdN + 1, ?_, fun t ht g hg => ?_⟩
    · rw [(exec_after hN hidle hstart (Nat.le_refl _)).phase, if_pos rfl]
    · rw [exec_shows hN hidle hstart hlow ht g, h0]
      exact h g hg

/-! ### When the digits are right -/

lemma toNat_loaded_pos (bin : BitVec p.binN) :
    (loaded (p := p) ⟨true, false, bin⟩).toNat = bin.toNat % 2 ^ (p.bcdN * 3 + 1) := by
  have hlt : bin.toNat < 2 ^ max (p.bcdN * 3 + 1) p.binN :=
    bin.isLt.trans_le (Nat.pow_le_pow_right (by decide) (Nat.le_max_right _ _))
  simp only [loaded, Bool.false_eq_true, if_false]
  rw [BitVec.toNat_setWidth, BitVec.toNat_setWidth, Nat.mod_eq_of_lt hlt]

/-- The complement of `2 ^ BIN_N - v` is `v` only if the input is as wide as the register. -/
lemma toNat_loaded_neg {v : ℕ} (hpos : 0 < v) (hv : v < 2 ^ p.binN) :
    (loaded (p := p) ⟨true, true, BitVec.ofNat p.binN (2 ^ p.binN - v)⟩).toNat =
      if p.bcdN * 3 + 1 ≤ p.binN then v % 2 ^ (p.bcdN * 3 + 1)
      else 2 ^ (p.bcdN * 3 + 1) - 2 ^ p.binN + v := by
  have hbin : (BitVec.ofNat p.binN (2 ^ p.binN - v)).toNat = 2 ^ p.binN - v := by
    rw [BitVec.toNat_ofNat, Nat.mod_eq_of_lt (by omega)]
  have hle : 2 ^ p.binN ≤ 2 ^ max (p.bcdN * 3 + 1) p.binN :=
    Nat.pow_le_pow_right (by decide) (Nat.le_max_right _ _)
  have hneg : (-(BitVec.ofNat p.binN (2 ^ p.binN - v)).setWidth
      (max (p.bcdN * 3 + 1) p.binN)).toNat =
        2 ^ max (p.bcdN * 3 + 1) p.binN - 2 ^ p.binN + v := by
    rw [BitVec.toNat_neg, BitVec.toNat_setWidth, hbin,
      Nat.mod_eq_of_lt (show 2 ^ p.binN - v < _ by omega), Nat.mod_eq_of_lt (by omega)]
    omega
  simp only [loaded, if_true]
  rw [show ∀ w (x : BitVec w), ~~~x + 1 = -x from fun w x => (BitVec.neg_eq_not_add x).symm,
    BitVec.toNat_setWidth, hneg]
  split_ifs with hwide
  · rw [Nat.max_eq_right hwide, Nat.sub_self, Nat.zero_add]
  · rw [Nat.max_eq_left (by omega)] at hle ⊢
    exact Nat.mod_eq_of_lt (by omega)

/-- The bits the passes do not get to: none from four digits on. -/
lemma left_out (hN : 4 ≤ p.bcdN) : p.bcdN * 3 + 1 - passes p.bcdN = 0 := by
  rw [passes_of_le hN, Nat.sub_self]

lemma two_le_weight {n : ℕ} (hn : 1 ≤ n) (hn4 : n < 4) : 2 ≤ 2 ^ (n * 3 + 1 - passes n) := by
  interval_cases n <;> decide

lemma low_bits_iff {x : ℕ} (hN : 1 ≤ p.bcdN) (hx : x < 10 ^ p.bcdN) :
    x % 2 ^ (p.bcdN * 3 + 1) / 2 ^ (p.bcdN * 3 + 1 - passes p.bcdN) % 10 ^ p.bcdN = x ↔
      x = 0 ∨ 4 ≤ p.bcdN ∧ x < 2 ^ (p.bcdN * 3 + 1) := by
  rcases Nat.lt_or_ge p.bcdN 4 with hlt | hge
  · have h2 := two_le_weight hN hlt
    generalize 2 ^ (p.bcdN * 3 + 1 - passes p.bcdN) = d at h2
    constructor
    · intro h
      have hle : x ≤ x / d := calc
        x = x % 2 ^ (p.bcdN * 3 + 1) / d % 10 ^ p.bcdN := h.symm
        _ ≤ x % 2 ^ (p.bcdN * 3 + 1) / d := Nat.mod_le _ _
        _ ≤ x / d := Nat.div_le_div_right (Nat.mod_le _ _)
      by_contra hne
      have := Nat.div_lt_self (show 0 < x by omega) h2
      omega
    · rintro (rfl | ⟨h4, -⟩)
      · simp
      · omega
  · rw [left_out hge, Nat.pow_zero, Nat.div_one]
    constructor
    · intro h
      have hle : x ≤ x % 2 ^ (p.bcdN * 3 + 1) := calc
        x = x % 2 ^ (p.bcdN * 3 + 1) % 10 ^ p.bcdN := h.symm
        _ ≤ x % 2 ^ (p.bcdN * 3 + 1) := Nat.mod_le _ _
      exact Or.inr ⟨hge, hle.trans_lt (Nat.mod_lt _ (Nat.two_pow_pos _))⟩
    · rintro (rfl | ⟨-, hfit⟩)
      · simp
      · rw [Nat.mod_eq_of_lt hfit, Nat.mod_eq_of_lt hx]

/-- **A number** comes out right if it fits the shift register and the counter counts all of
its bits, and zero comes out right in any case. -/
theorem converts_pos_iff {bin : BitVec p.binN} (hN : 1 ≤ p.bcdN)
    (hbin : bin.toNat < 10 ^ p.bcdN) :
    Converts p false bin bin.toNat ↔
      bin.toNat = 0 ∨ 4 ≤ p.bcdN ∧ bin.toNat < 2 ^ (p.bcdN * 3 + 1) := by
  rw [converts_iff hN hbin, topBits, toNat_loaded_pos]
  exact low_bits_iff hN hbin

/-- Where a complement comes out right with too few passes: `BCD_N`, `BIN_N` and the number. -/
def coincidences : List (ℕ × ℕ × ℕ) :=
  [(1, 2, 3), (1, 3, 2), (2, 3, 7), (2, 4, 7), (2, 5, 6), (2, 6, 4), (3, 2, 3), (3, 3, 3),
    (3, 4, 3), (3, 5, 3), (3, 6, 3), (3, 7, 3), (3, 8, 3), (3, 9, 2)]

lemma two_pow_lt_ten_pow {n : ℕ} (h : 4 ≤ n) : 2 ^ (n * 3 + 1) < 10 ^ n := by
  induction n, h using Nat.le_induction with
  | base => decide
  | succ n _ ih =>
    calc
      2 ^ ((n + 1) * 3 + 1) = 2 ^ (n * 3 + 1) * 2 ^ 3 := by
        rw [← Nat.pow_add]
        congr 1
        omega
      _ < 10 ^ n * 10 := by omega
      _ = 10 ^ (n + 1) := (Nat.pow_succ ..).symm

/-- The complements narrower than the register, with all passes: the ones above them count. -/
lemma narrow_wrong {n b v : ℕ} (hn : 4 ≤ n) (hb : b < n * 3 + 1) (hv : v < 10 ^ n) :
    ¬ (2 ^ (n * 3 + 1) - 2 ^ b + v) % 10 ^ n = v := by
  have hlt := two_pow_lt_ten_pow hn
  have hpow : 2 ^ b < 2 ^ (n * 3 + 1) := Nat.pow_lt_pow_right (by decide) hb
  have hpos : 0 < 2 ^ (n * 3 + 1) - 2 ^ b := Nat.sub_pos_of_lt hpow
  have hones : 2 ^ (n * 3 + 1) - 2 ^ b < 10 ^ n := (Nat.sub_le _ _).trans_lt hlt
  generalize 2 ^ (n * 3 + 1) - 2 ^ b = d at hpos hones ⊢
  rcases Nat.lt_or_ge (d + v) (10 ^ n) with hsum | hsum
  · rw [Nat.mod_eq_of_lt hsum]
    omega
  · rw [Nat.mod_eq_sub_mod hsum, Nat.mod_eq_of_lt (show d + v - 10 ^ n < 10 ^ n by omega)]
    omega

/-- What the passes make of a complement narrower than the register. -/
def ofNarrow (n b v : ℕ) : ℕ :=
  (2 ^ (n * 3 + 1) - 2 ^ b + v) / 2 ^ (n * 3 + 1 - passes n) % 10 ^ n

lemma ofNarrow_lt {n b v : ℕ} (hn : 1 ≤ n) (hn4 : n < 4) (hb : b < n * 3 + 1) (hv : v < 2 ^ b) :
    ofNarrow n b v < 8 := by
  have hpasses : passes n ≤ 3 := by interval_cases n <;> decide
  have hle : 2 ^ b ≤ 2 ^ (n * 3 + 1) := Nat.pow_le_pow_right (by decide) hb.le
  calc
    ofNarrow n b v ≤ (2 ^ (n * 3 + 1) - 2 ^ b + v) / 2 ^ (n * 3 + 1 - passes n) := Nat.mod_le _ _
    _ < 2 ^ passes n := by
      rw [Nat.div_lt_iff_lt_mul (Nat.two_pow_pos _), ← Nat.pow_add,
        Nat.add_sub_cancel' (passes_le hn)]
      omega
    _ ≤ 2 ^ 3 := Nat.pow_le_pow_right (by decide) hpasses

lemma ofNarrow_eq_iff {n b v : ℕ} (hn : 1 ≤ n) (hn4 : n < 4) (hb : b < n * 3 + 1) (hpos : 0 < v)
    (hv : v < 2 ^ b) : ofNarrow n b v = v ↔ (n, b, v) ∈ coincidences := by
  have hall : ∀ c ∈ coincidences, ofNarrow c.1 c.2.1 c.2.2 = c.2.2 := by decide
  have honly : ∀ (n : Fin 4) (b : Fin 10) (v : Fin 8), 1 ≤ n.val → b.val < n.val * 3 + 1 →
      0 < v.val → v.val < 2 ^ b.val → ofNarrow n b v = v → (n.val, b.val, v.val) ∈ coincidences := by
    decide
  constructor
  · intro h
    have hlt : v < 8 := h ▸ ofNarrow_lt hn hn4 hb hv
    exact honly ⟨n, hn4⟩ ⟨b, by omega⟩ ⟨v, hlt⟩ hn hb hpos hv h
  · exact hall (n, b, v)

/-- **A complement** comes out right if the input is as wide as the shift register and what it
stands for fits, or by coincidence. -/
lemma converts_neg_iff {v : ℕ} (hN : 1 ≤ p.bcdN) (hpos : 0 < v) (hv : v < 2 ^ p.binN)
    (h10 : v < 10 ^ p.bcdN) :
    Converts p true (BitVec.ofNat p.binN (2 ^ p.binN - v)) v ↔
      (4 ≤ p.bcdN ∧ p.bcdN * 3 + 1 ≤ p.binN ∧ v < 2 ^ (p.bcdN * 3 + 1)) ∨
        (p.bcdN, p.binN, v) ∈ coincidences := by
  have hfew : ∀ c ∈ coincidences, c.1 < 4 ∧ c.2.1 < c.1 * 3 + 1 := by decide
  rw [converts_iff hN h10, topBits, toNat_loaded_neg hpos hv]
  split_ifs with hwide
  · rw [low_bits_iff hN h10]
    constructor
    · rintro (h | ⟨h4, hfit⟩)
      · omega
      · exact Or.inl ⟨h4, hwide, hfit⟩
    · rintro (⟨h4, -, hfit⟩ | h)
      · exact Or.inr ⟨h4, hfit⟩
      · exact absurd (hfew _ h).2 (Nat.not_lt.mpr hwide)
  rcases Nat.lt_or_ge p.bcdN 4 with hlt | hge
  · rw [← ofNarrow, ofNarrow_eq_iff hN hlt (Nat.not_le.mp hwide) hpos hv]
    exact ⟨Or.inr, fun h => h.resolve_left fun h => hwide h.2.1⟩
  · rw [left_out hge, Nat.pow_zero, Nat.div_one]
    refine iff_of_false (narrow_wrong hge (Nat.not_le.mp hwide) h10) ?_
    rintro (⟨-, hle, -⟩ | h)
    · exact hwide hle
    · exact absurd (hfew _ h).1 (Nat.not_lt.mpr hge)

end Blastit.Rtl.Bin2bcd
