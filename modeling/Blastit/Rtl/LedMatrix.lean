import Blastit.Lib.Turns
import Blastit.Rtl.ModMCounter
import Blastit.Rtl.Pwm

/-!
`led_matrix.v`: enable bits for `LEDS_N * LEDS_M` lights, scanned one at a time.

The scan position is kept three times, as an address and as a column and row; the
invariant `Scan` says that they agree. The resets are asynchronous: while `reset` is high
the registers behind it read as reset whatever they held. The enable bits are not behind
the reset.
-/

namespace Blastit.Rtl.LedMatrix

open Blastit.Lib.Clocked Blastit.Lib.Sizing Blastit.Lib.Ticks Blastit.Lib.Turns

structure Params where
  ledsN : ℕ
  ledsM : ℕ
  nBits : ℕ
  mBits : ℕ
  pwmBits : ℕ
  ledPeriodBits : ℕ

variable {p : Params}

/-- `enReg` is the register file, a bit for each address below `LEDS_N * LEDS_M`. -/
structure State (p : Params) where
  enReg : ℕ → Bool
  addrIReg : BitVec (p.nBits + p.mBits)
  nIReg : BitVec p.nBits
  mIReg : BitVec p.mBits
  pwmN : Pwm.State p.pwmBits
  tickCounter : ModMCounter.State p.ledPeriodBits

structure In (p : Params) where
  reset : Bool
  brightness : BitVec p.pwmBits
  selAddr : BitVec (p.nBits + p.mBits)
  sel : Bool
  en : Bool
  ledPeriod : BitVec p.ledPeriodBits

/-- The registers behind the reset, cleared. -/
def reset (s : State p) : State p :=
  { s with addrIReg := 0, nIReg := 0, mIReg := 0, pwmN := Pwm.reset, tickCounter := ModMCounter.reset }

/-- The registers as they read on a clock. -/
def visible (s : State p) (i : In p) : State p := if i.reset then reset s else s

def ledTick (s : State p) : Bool := ModMCounter.maxTick s.tickCounter

/-- The position one LED tick later, and whether all positions have been scanned. -/
def advance (s : State p) : BitVec p.nBits × BitVec p.mBits × BitVec (p.nBits + p.mBits) × Bool :=
  if (s.nIReg + 1).toNat = p.ledsN then
    if (s.mIReg + 1).toNat = p.ledsM then (0, 0, 0, true)
    else (0, s.mIReg + 1, s.addrIReg + 1, false)
  else (s.nIReg + 1, s.mIReg, s.addrIReg + 1, false)

def doneTick (s : State p) (i : In p) : Bool :=
  ledTick (visible s i) && (advance (visible s i)).2.2.2

def write (s : State p) (i : In p) : ℕ → Bool :=
  if i.sel && decide (i.selAddr.toNat < p.ledsN * p.ledsM) then
    Function.update s.enReg i.selAddr.toNat i.en
  else s.enReg

def next (s : State p) (i : In p) : State p :=
  if i.reset then { reset s with enReg := write s i }
  else
    let s' : State p :=
      if ledTick s then
        { s with nIReg := (advance s).1, mIReg := (advance s).2.1, addrIReg := (advance s).2.2.1 }
      else s
    { s' with
      enReg := write s i
      pwmN := Pwm.next s.pwmN
      tickCounter := ModMCounter.next s.tickCounter i.ledPeriod }

lemma next_enReg (s : State p) (i : In p) : (next s i).enReg = write s i := by
  unfold next
  split <;> rfl

lemma visible_enReg (s : State p) (i : In p) : (visible s i).enReg = s.enReg := by
  unfold visible
  split <;> rfl

/-! ### Outputs -/

def current (s : State p) : Bool := s.enReg s.addrIReg.toNat

def curN (s : State p) : BitVec p.ledsN := (BitVec.ofBool (current s)).setWidth p.ledsN <<< s.nIReg

def curM (s : State p) : BitVec p.ledsM := (BitVec.ofBool (current s)).setWidth p.ledsM <<< s.mIReg

/-- `{ n_en, m_en }`. -/
def enables (s : State p) (i : In p) : BitVec (p.ledsN + p.ledsM) :=
  Pwm.out (visible s i).pwmN i.brightness (curN (visible s i) ++ curM (visible s i))

def nEn (s : State p) (i : In p) : BitVec p.ledsN := (enables s i).extractLsb' p.ledsM p.ledsN

def mEn (s : State p) (i : In p) : BitVec p.ledsM := (enables s i).extractLsb' 0 p.ledsM

/-- The matrix drives its lines on this clock. -/
def lit (s : State p) (i : In p) : Bool :=
  current (visible s i) && Pwm.passes (visible s i).pwmN i.brightness

lemma shifted_getLsbD {w v : ℕ} (b : Bool) (k : BitVec v) {n : ℕ} (hn : n < w) :
    (((BitVec.ofBool b).setWidth w <<< k).getLsbD n) = (b && decide (n = k.toNat)) := by
  rw [BitVec.getLsbD_shiftLeft', BitVec.getLsbD_setWidth, BitVec.getLsbD_ofBool]
  rcases Nat.lt_trichotomy n k.toNat with h | rfl | h
  · simp [h, show n ≠ k.toNat by omega]
  · simp [hn, show 0 < w by omega]
  · have hsub : n - k.toNat ≠ 0 := by omega
    simp [hsub, show n ≠ k.toNat by omega]

lemma curN_getLsbD (s : State p) {n : ℕ} (hn : n < p.ledsN) :
    (curN s ++ curM s).getLsbD (p.ledsM + n) = (current s && decide (n = s.nIReg.toNat)) := by
  rw [BitVec.getLsbD_append, if_neg (by omega), Nat.add_sub_cancel_left, curN,
    shifted_getLsbD _ _ hn]

lemma curM_getLsbD (s : State p) {m : ℕ} (hm : m < p.ledsM) :
    (curN s ++ curM s).getLsbD m = (current s && decide (m = s.mIReg.toNat)) := by
  rw [BitVec.getLsbD_append, if_pos hm, curM, shifted_getLsbD _ _ hm]

/-- **The lines driven**: the column and the row of the position, while the matrix is lit. -/
lemma nEn_getLsbD (s : State p) (i : In p) {n : ℕ} (hn : n < p.ledsN) :
    (nEn s i).getLsbD n = true ↔ lit s i = true ∧ n = (visible s i).nIReg.toNat := by
  rw [nEn, BitVec.getLsbD_extractLsb', enables, Pwm.out, lit]
  cases hpass : Pwm.passes (visible s i).pwmN i.brightness with
  | false => simp
  | true => simp [hn, curN_getLsbD _ hn]

lemma mEn_getLsbD (s : State p) (i : In p) {m : ℕ} (hm : m < p.ledsM) :
    (mEn s i).getLsbD m = true ↔ lit s i = true ∧ m = (visible s i).mIReg.toNat := by
  rw [mEn, BitVec.getLsbD_extractLsb', enables, Pwm.out, lit]
  cases hpass : Pwm.passes (visible s i).pwmN i.brightness with
  | false => simp
  | true => simp [hm, curM_getLsbD _ hm]

/-! ### The scan -/

/-- The parameters leave room for every index. -/
structure Params.Room (p : Params) : Prop where
  n_pos : 0 < p.ledsN
  m_pos : 0 < p.ledsM
  n : p.ledsN < 2 ^ p.nBits
  m : p.ledsM < 2 ^ p.mBits

/-- Column and row are in range and the address is theirs. -/
structure Scan (s : State p) : Prop where
  n_lt : s.nIReg.toNat < p.ledsN
  m_lt : s.mIReg.toNat < p.ledsM
  addr : s.addrIReg.toNat = s.mIReg.toNat * p.ledsN + s.nIReg.toNat

lemma scan_reset (hp : p.Room) (s : State p) : Scan (reset s) :=
  ⟨by simpa [reset] using hp.n_pos, by simpa [reset] using hp.m_pos, by simp [reset]⟩

lemma Scan.visible {s : State p} (h : Scan s) (hp : p.Room) (i : In p) :
    Scan (LedMatrix.visible s i) := by
  unfold LedMatrix.visible
  split
  · exact scan_reset hp s
  · exact h

lemma Params.Room.addr (hp : p.Room) : p.ledsN * p.ledsM < 2 ^ (p.nBits + p.mBits) := by
  rw [Nat.pow_add]
  exact Nat.mul_lt_mul'' hp.n hp.m

lemma Scan.addr_lt {s : State p} (h : Scan s) : s.addrIReg.toNat < p.ledsN * p.ledsM := by
  have h1 := h.n_lt
  have hmul : (s.mIReg.toNat + 1) * p.ledsN ≤ p.ledsM * p.ledsN :=
    Nat.mul_le_mul_right _ h.m_lt
  rw [h.addr, Nat.mul_comm p.ledsN]
  rw [Nat.succ_mul] at hmul
  omega

/-- **One LED tick**: the next position, and from the last one back to the first. -/
lemma Scan.advance {s : State p} (h : Scan s) (hp : p.Room) :
    (LedMatrix.advance s).1.toNat < p.ledsN ∧ (LedMatrix.advance s).2.1.toNat < p.ledsM ∧
      (LedMatrix.advance s).2.2.1.toNat =
        (LedMatrix.advance s).2.1.toNat * p.ledsN + (LedMatrix.advance s).1.toNat ∧
      (LedMatrix.advance s).2.2.1.toNat =
        (if s.addrIReg.toNat + 1 = p.ledsN * p.ledsM then 0 else s.addrIReg.toNat + 1) ∧
      ((LedMatrix.advance s).2.2.2 = true ↔ s.addrIReg.toNat + 1 = p.ledsN * p.ledsM) := by
  have hn := h.n_lt
  have hm := h.m_lt
  have haddr := h.addr
  have hlt := h.addr_lt
  have hroom := hp.addr
  have hn1 : (s.nIReg + 1).toNat = s.nIReg.toNat + 1 := toNat_succ (by have := hp.n; omega)
  have hm1 : (s.mIReg + 1).toNat = s.mIReg.toNat + 1 := toNat_succ (by have := hp.m; omega)
  have ha1 : (s.addrIReg + 1).toNat = s.addrIReg.toNat + 1 := toNat_succ (by omega)
  unfold LedMatrix.advance
  by_cases hcol : s.nIReg.toNat + 1 = p.ledsN
  · by_cases hrow : s.mIReg.toNat + 1 = p.ledsM
    · -- the last position
      have hlast : s.addrIReg.toNat + 1 = p.ledsN * p.ledsM := by
        rw [haddr, ← hrow, Nat.mul_comm p.ledsN, Nat.succ_mul]
        omega
      rw [if_pos (by rw [hn1]; exact hcol), if_pos (by rw [hm1]; exact hrow)]
      simpa [hlast] using ⟨hp.n_pos, hp.m_pos⟩
    · -- the end of a row
      have hmul : (s.mIReg.toNat + 2) * p.ledsN ≤ p.ledsM * p.ledsN :=
        Nat.mul_le_mul_right _ (by omega)
      have hne : s.addrIReg.toNat + 1 ≠ p.ledsN * p.ledsM := by
        rw [haddr, Nat.mul_comm p.ledsN]
        rw [Nat.add_mul] at hmul
        have := hp.n_pos
        omega
      rw [if_pos (by rw [hn1]; exact hcol), if_neg (by rw [hm1]; exact hrow)]
      have h0 : (0 : BitVec p.nBits).toNat = 0 := by simp
      simp only [hne, if_false, ha1, hm1, Nat.succ_mul, h0, Bool.false_eq_true, iff_self]
      exact ⟨hp.n_pos, by omega, by omega, trivial, trivial⟩
  · have hne : s.addrIReg.toNat + 1 ≠ p.ledsN * p.ledsM := by
      have hmul : (s.mIReg.toNat + 1) * p.ledsN ≤ p.ledsM * p.ledsN :=
        Nat.mul_le_mul_right _ hm
      rw [haddr, Nat.mul_comm p.ledsN]
      rw [Nat.succ_mul] at hmul
      omega
    rw [if_neg (by rw [hn1]; exact hcol)]
    simp only [hne, if_false, ha1, hn1, Bool.false_eq_true, iff_self]
    exact ⟨by omega, hm, by omega, trivial, trivial⟩

/-- **The scan invariant** is kept by every clock. -/
lemma Scan.next {s : State p} (h : Scan s) (hp : p.Room) (i : In p) :
    Scan (LedMatrix.next s i) := by
  unfold LedMatrix.next
  cases hr : i.reset with
  | true =>
    obtain ⟨h1, h2, h3⟩ := scan_reset hp s
    exact ⟨h1, h2, h3⟩
  | false =>
    cases ht : ledTick s with
    | false => exact ⟨h.n_lt, h.m_lt, h.addr⟩
    | true =>
      obtain ⟨h1, h2, h3, -⟩ := h.advance hp
      exact ⟨h1, h2, h3⟩

lemma Scan.enabled_of_lit {s : State p} (h : Scan s) (hp : p.Room) {i : In p}
    (hl : lit s i = true) :
    s.enReg ((LedMatrix.visible s i).mIReg.toNat * p.ledsN +
      (LedMatrix.visible s i).nIReg.toNat) = true := by
  have hcur : current (LedMatrix.visible s i) = true := by
    rw [lit, Bool.and_eq_true] at hl
    exact hl.1
  rw [current, (h.visible hp i).addr] at hcur
  rw [visible_enReg] at hcur
  exact hcur

/-! ### A scanner released once -/

/-- `reset` is high before clock `r` and low from there on, and `led_period` is constant. -/
structure Released (inp : ℕ → In p) (m : BitVec p.ledPeriodBits) (r : ℕ) : Prop where
  reset : ∀ t, (inp t).reset = decide (t < r)
  period : ∀ t, (inp t).ledPeriod = m

variable {s : State p} {inp : ℕ → In p} {m : BitVec p.ledPeriodBits} {r : ℕ}

/-- The counter, `j` clocks after the release. -/
def counterAt (m : BitVec p.ledPeriodBits) (j : ℕ) : ModMCounter.State p.ledPeriodBits :=
  exec ModMCounter.next ModMCounter.reset (fun _ => m) j

def tickAt (m : BitVec p.ledPeriodBits) (j : ℕ) : Bool := ModMCounter.maxTick (counterAt m j)

lemma counter_train (m : BitVec p.ledPeriodBits) :
    Train (m.toNat + 1) (fun j => ModMCounter.countdown m (counterAt m j)) (tickAt m) :=
  ModMCounter.train (ModMCounter.phase_reset m)

lemma countdown_zero (m : BitVec p.ledPeriodBits) :
    ModMCounter.countdown m (counterAt m 0) = m.toNat + 1 := by
  simp [counterAt, ModMCounter.countdown, ModMCounter.reset]

/-- The position `j` clocks after the release. -/
def positionAt (m : BitVec p.ledPeriodBits) (j : ℕ) : ℕ :=
  (j - 1) / (m.toNat + 1) % (p.ledsN * p.ledsM)

lemma ticks_eq (m : BitVec p.ledPeriodBits) (j : ℕ) :
    ticks (tickAt m) 0 j = (j - 1) / (m.toNat + 1) :=
  (counter_train m).ticks_fresh (countdown_zero m) j

lemma positionAt_succ (m : BitVec p.ledPeriodBits) (hp : p.Room) (j : ℕ) :
    positionAt m (j + 1) =
      if tickAt m j then
        if positionAt m j + 1 = p.ledsN * p.ledsM then 0 else positionAt m j + 1
      else positionAt m j := by
  unfold positionAt
  rw [← ticks_eq, ← ticks_eq, ticks_succ, Nat.zero_add]
  split
  · exact add_one_mod (Nat.mul_pos hp.n_pos hp.m_pos) _
  · rfl

/-- **Where a released scanner stands**: the registers are those of the counter and the
position, whatever was written meanwhile. -/
lemma released_run (h : Released inp m r) (hp : p.Room) (t : ℕ) :
    (exec next (LedMatrix.reset s) inp t).tickCounter = counterAt m (t - r) ∧
      (exec next (LedMatrix.reset s) inp t).addrIReg.toNat = positionAt m (t - r) ∧
      Scan (exec next (LedMatrix.reset s) inp t) := by
  induction t with
  | zero =>
    refine ⟨by simp [counterAt, LedMatrix.reset], by simp [positionAt, LedMatrix.reset], ?_⟩
    exact scan_reset hp s
  | succ t ih =>
    obtain ⟨hc, ha, hs⟩ := ih
    rw [exec_succ]
    rcases Nat.lt_or_ge t r with hlt | hge
    · have hr : (inp t).reset = true := by rw [h.reset, decide_eq_true hlt]
      rw [show t + 1 - r = 0 by omega]
      refine ⟨by simp [next, hr, counterAt, LedMatrix.reset],
        by simp [next, hr, positionAt, LedMatrix.reset], hs.next hp _⟩
    · have hr : (inp t).reset = false := by rw [h.reset, decide_eq_false (by omega)]
      have htick : ledTick (exec next (LedMatrix.reset s) inp t) = tickAt m (t - r) := by
        rw [ledTick, hc]; rfl
      obtain ⟨-, -, -, hadv, -⟩ := hs.advance hp
      rw [show t + 1 - r = t - r + 1 by omega, positionAt_succ m hp, ← htick, ← ha]
      refine ⟨?_, ?_, hs.next hp _⟩
      · simp only [next, hr, Bool.false_eq_true, if_false, h.period, hc]
        rfl
      · simp only [next, hr, Bool.false_eq_true, if_false]
        split
        · exact hadv
        · rfl

lemma released_visible (h : Released inp m r) (hp : p.Room) (t : ℕ) :
    ledTick (visible (exec next (LedMatrix.reset s) inp t) (inp t)) = tickAt m (t - r) ∧
      (visible (exec next (LedMatrix.reset s) inp t) (inp t)).addrIReg.toNat =
        positionAt m (t - r) := by
  obtain ⟨hc, ha, -⟩ := released_run (s := s) h hp t
  unfold visible
  rcases Nat.lt_or_ge t r with hlt | hge
  · rw [if_pos (by rw [h.reset, decide_eq_true hlt]), show t - r = 0 by omega]
    exact ⟨rfl, by simp [positionAt, LedMatrix.reset]⟩
  · rw [if_neg (by rw [h.reset, decide_eq_false (by omega)]; decide), ledTick, hc]
    exact ⟨rfl, ha⟩

lemma positionAt_tick (m : BitVec p.ledPeriodBits) (q : ℕ) :
    positionAt m ((q + 1) * (m.toNat + 1)) = q % (p.ledsN * p.ledsM) := by
  have he : (q + 1) * (m.toNat + 1) - 1 = (m.toNat + 1) * q + m.toNat := by
    rw [Nat.succ_mul, Nat.mul_comm q]
    omega
  rw [positionAt, he, Nat.mul_add_div (Nat.succ_pos _), Nat.div_eq_of_lt (Nat.lt_succ_self _),
    Nat.add_zero]

/-- **A scan ends every `LEDS_N * LEDS_M` LED ticks.** -/
lemma released_doneTick (h : Released inp m r) (hp : p.Room) :
    Every (p.ledsN * p.ledsM * (m.toNat + 1)) r
      (fun t => doneTick (exec next (LedMatrix.reset s) inp t) (inp t)) := by
  intro t
  have hpos : 0 < p.ledsN * p.ledsM := Nat.mul_pos hp.n_pos hp.m_pos
  obtain ⟨htick, haddr⟩ := released_visible (s := s) h hp t
  have hscan := (released_run (s := s) h hp t).2.2.visible hp (inp t)
  obtain ⟨-, -, -, -, hdone⟩ := hscan.advance hp
  rw [haddr] at hdone
  simp only [doneTick, Bool.and_eq_true, htick, hdone]
  rw [(counter_train m).tick_fresh (countdown_zero m)]
  constructor
  · rintro ⟨⟨q, hq⟩, hlast⟩
    rw [hq, positionAt_tick, add_one_mod_eq_iff hpos] at hlast
    have hqpos : 0 < (q + 1) * (m.toNat + 1) := Nat.mul_pos (Nat.succ_pos _) (Nat.succ_pos _)
    refine ⟨by omega, (Nat.modEq_iff_dvd' (by omega)).mpr ?_⟩
    rw [hq]
    exact Nat.mul_dvd_mul_right hlast _
  · rintro ⟨hlt, hmod⟩
    obtain ⟨e, he⟩ := (Nat.modEq_iff_dvd' hlt.le).mp hmod
    have hne : e ≠ 0 := fun h0 => by rw [h0, Nat.mul_zero] at he; omega
    obtain ⟨q, hq⟩ : ∃ q, p.ledsN * p.ledsM * e = q + 1 :=
      Nat.exists_eq_succ_of_ne_zero (Nat.mul_ne_zero hpos.ne' hne)
    have hj : t - r = (q + 1) * (m.toNat + 1) := by
      rw [he, ← hq, Nat.mul_right_comm]
    refine ⟨⟨q, hj⟩, ?_⟩
    rw [hj, positionAt_tick, add_one_mod_eq_iff hpos, ← hq]
    exact Nat.dvd_mul_right _ _

end Blastit.Rtl.LedMatrix
