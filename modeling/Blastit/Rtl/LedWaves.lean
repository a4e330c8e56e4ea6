import Blastit.Lib.Flags
import Blastit.Rtl.LedMatrix

/-!
What a scanner of `led_matrix.v` lights, from the waveforms on its inputs alone.

Three things settle it: the clock of its last release, the counts of `led_period` that are
over since then, and the last write to a bit. No register is read here; `stands_run` says
that the registers of a run are where these say.
-/

namespace Blastit.Rtl.LedMatrix

open Blastit.Lib.Clocked Blastit.Lib.Flags Blastit.Lib.Sizing Blastit.Lib.Ticks

variable {p : Params} (inp : ℕ → In p)

/-- In reset on one of two clocks. -/
def resetBetween (t : ℕ) : Bool := (inp t).reset || (inp (t + 1)).reset

/-- The clock since which the scanner is out of reset, `t` itself while it is in reset. -/
def freeSince : ℕ → ℕ
  | 0 => 0
  | t + 1 => if resetBetween inp t then t + 1 else freeSince t

/-- A count that began at clock `x` is over at clock `t`: the clocks since then are
`led_period`, as far as the counter can tell. -/
def countOver (x t : ℕ) : Bool := (t - x) % 2 ^ p.ledPeriodBits == (inp t).ledPeriod.toNat

/-- The clock at which the count that goes on at clock `t` began. -/
def countSince : ℕ → ℕ
  | 0 => 0
  | t + 1 => if resetBetween inp t || countOver inp (countSince t) t then t + 1 else countSince t

/-- A count is over on the clock before: an LED tick, which moves the scan on. -/
def Moves (t : ℕ) : Prop := freeSince inp t < t ∧ countSince inp t = t

/-- The LED ticks since the release. -/
def moved (t : ℕ) : ℕ := Nat.count (fun u => freeSince inp t < u ∧ countSince inp u = u) t

def place (t : ℕ) : ℕ := moved inp t % (p.ledsN * p.ledsM)

def Ends (t : ℕ) : Prop := Moves inp t ∧ p.ledsN * p.ledsM ∣ moved inp t + 1

def Writes (k : ℕ) (b : Bool) (t : ℕ) : Prop :=
  k < p.ledsN * p.ledsM ∧ (inp t).sel = true ∧ (inp t).selAddr.toNat = k ∧ (inp t).en = b

/-- Bit `k` is set at clock `t`, `en₀` being the bits at the start. -/
def Enabled (en₀ : ℕ → Bool) (k t : ℕ) : Prop :=
  Holds (en₀ k = true) (Writes inp k true) (Writes inp k false) t

def Shines (t : ℕ) : Prop :=
  (inp t).brightness ≠ 0 ∧ (t - freeSince inp t) % 2 ^ p.pwmBits ≤ (inp t).brightness.toNat

def Lights (en₀ : ℕ → Bool) (t : ℕ) : Prop := Enabled inp en₀ (place inp t) t ∧ Shines inp t

variable {inp} {s : State p} {t k : ℕ}

/-! ### The waveforms, clock by clock -/

lemma freeSince_le (inp : ℕ → In p) (t : ℕ) : freeSince inp t ≤ t := by
  induction t with
  | zero => exact le_rfl
  | succ t ih =>
    unfold freeSince
    split <;> omega

lemma countSince_le (inp : ℕ → In p) (t : ℕ) : countSince inp t ≤ t := by
  induction t with
  | zero => exact le_rfl
  | succ t ih =>
    unfold countSince
    split <;> omega

lemma freeSince_of_reset (h : resetBetween inp t = true) : freeSince inp (t + 1) = t + 1 :=
  if_pos h

lemma freeSince_of_free (h : resetBetween inp t = false) :
    freeSince inp (t + 1) = freeSince inp t := by
  rw [freeSince, h, if_neg Bool.false_ne_true]

lemma countSince_of_reset (h : resetBetween inp t = true) : countSince inp (t + 1) = t + 1 := by
  rw [countSince, h, Bool.true_or, if_pos rfl]

lemma countSince_of_free (h : resetBetween inp t = false) :
    countSince inp (t + 1) =
      if countOver inp (countSince inp t) t then t + 1 else countSince inp t := by
  rw [countSince, h, Bool.false_or]

lemma moved_of_reset (h : resetBetween inp t = true) : moved inp (t + 1) = 0 := by
  refine Nat.count_iff_forall_not.mpr fun u hu hp => ?_
  rw [freeSince_of_reset h] at hp
  omega

lemma moved_of_free (h : resetBetween inp t = false) [Decidable (Moves inp t)] :
    moved inp (t + 1) = moved inp t + if Moves inp t then 1 else 0 := by
  unfold moved
  rw [Nat.count_succ, freeSince_of_free h]
  congr 2

/-! ### The registers -/

lemma age_succ {w a : ℕ} {x : BitVec w} (ha : a ≤ t) (hx : x.toNat = (t - a) % 2 ^ w) :
    (x + 1).toNat = (t + 1 - a) % 2 ^ w := by
  have hone : (1 : BitVec w).toNat = 1 % 2 ^ w := BitVec.toNat_ofNat 1 w
  rw [BitVec.toNat_add, hone, hx, ← Nat.add_mod, Nat.sub_add_comm ha]

/-- The registers `v` are where the waveforms say at clock `t`. -/
structure Stands (inp : ℕ → In p) (v : State p) (t : ℕ) : Prop where
  count : v.tickCounter.rReg.toNat = (t - countSince inp t) % 2 ^ p.ledPeriodBits
  tick : ledTick v = true ↔ Moves inp t
  pwm : v.pwmN.counterReg.toNat = (t - freeSince inp t) % 2 ^ p.pwmBits
  addr : v.addrIReg.toNat = place inp t
  scan : Scan v

lemma stands_reset (hp : p.Room) (v : State p) (hfree : freeSince inp t = t)
    (hcount : countSince inp t = t) (hmoved : moved inp t = 0) : Stands inp (reset v) t where
  count := by simp [reset, ModMCounter.reset, hcount]
  tick := iff_of_false Bool.false_ne_true fun h => by
    have := h.1
    omega
  pwm := by simp [reset, Pwm.reset, hfree]
  addr := by simp [reset, place, hmoved]
  scan := scan_reset hp v

/-- **One clock out of reset**: each register follows its waveform. -/
lemma Stands.next {v : State p} (h : Stands inp v t) (hp : p.Room)
    (hfree : resetBetween inp t = false) : Stands inp (LedMatrix.next v (inp t)) (t + 1) := by
  classical
  have hr : (inp t).reset = false := (Bool.or_eq_false_iff.mp hfree).1
  have hover : (v.tickCounter.rReg == (inp t).ledPeriod) = countOver inp (countSince inp t) t := by
    rw [countOver, ← h.count, Bool.eq_iff_iff, beq_iff_eq, beq_iff_eq, BitVec.toNat_inj]
  have hlast := countSince_le inp t
  have hcounter : (LedMatrix.next v (inp t)).tickCounter =
      ModMCounter.next v.tickCounter (inp t).ledPeriod := by
    rw [LedMatrix.next, hr, if_neg Bool.false_ne_true]
  refine ⟨?_, ?_, ?_, ?_, h.scan.next hp _⟩
  · rw [hcounter, ModMCounter.next, hover, countSince_of_free hfree]
    cases countOver inp (countSince inp t) t with
    | true => simp
    | false => exact age_succ hlast h.count
  · rw [ledTick, hcounter, ModMCounter.next, hover, Moves, freeSince_of_free hfree,
      countSince_of_free hfree]
    have hfirst := freeSince_le inp t
    cases countOver inp (countSince inp t) t with
    | true => exact iff_of_true rfl ⟨by omega, rfl⟩
    | false =>
      refine iff_of_false Bool.false_ne_true fun hm => ?_
      have : countSince inp t = t + 1 := hm.2
      omega
  · have hpwm : (LedMatrix.next v (inp t)).pwmN = Pwm.next v.pwmN := by
      rw [LedMatrix.next, hr, if_neg Bool.false_ne_true]
    rw [hpwm, freeSince_of_free hfree]
    exact age_succ (freeSince_le inp t) h.pwm
  · obtain ⟨-, -, -, hadv, -⟩ := h.scan.advance hp
    have haddr : (LedMatrix.next v (inp t)).addrIReg =
        if ledTick v then (LedMatrix.advance v).2.2.1 else v.addrIReg := by
      rw [LedMatrix.next, hr, if_neg Bool.false_ne_true]
      dsimp only
      split <;> rfl
    rw [haddr, place, moved_of_free hfree]
    by_cases hm : Moves inp t
    · rw [if_pos (h.tick.mpr hm), if_pos hm, hadv, h.addr, place,
        add_one_mod (Nat.mul_pos hp.n_pos hp.m_pos)]
    · rw [if_neg (mt h.tick.mp hm), if_neg hm, Nat.add_zero, h.addr, place]

/-- **Where a run stands**: at every clock the registers read as the waveforms say. -/
theorem stands_run (hp : p.Room) (s : State p) (inp : ℕ → In p) (t : ℕ) :
    Stands inp (visible (exec next (reset s) inp t) (inp t)) t := by
  induction t with
  | zero =>
    have hreset : visible (reset s) (inp 0) = reset s := by
      unfold visible
      split <;> rfl
    rw [exec_zero, hreset]
    exact stands_reset hp s rfl rfl rfl
  | succ t ih =>
    rw [exec_succ]
    cases hb : resetBetween inp t with
    | true =>
      have hreset : ∃ v,
          visible (next (exec next (reset s) inp t) (inp t)) (inp (t + 1)) = reset v := by
        cases hr' : (inp (t + 1)).reset with
        | true => exact ⟨_, if_pos hr'⟩
        | false =>
          have hr : (inp t).reset = true := by simpa [resetBetween, hr'] using hb
          refine ⟨next (exec next (reset s) inp t) (inp t), ?_⟩
          rw [visible, hr', if_neg Bool.false_ne_true, next, hr, if_pos rfl]
          rfl
      obtain ⟨v, hv⟩ := hreset
      rw [hv]
      exact stands_reset hp v (freeSince_of_reset hb) (countSince_of_reset hb) (moved_of_reset hb)
    | false =>
      obtain ⟨hr, hr'⟩ := Bool.or_eq_false_iff.mp hb
      rw [visible, hr, if_neg Bool.false_ne_true] at ih
      rw [visible, hr', if_neg Bool.false_ne_true]
      exact ih.next hp hb

lemma enReg_run (s : State p) (inp : ℕ → In p) (k t : ℕ) :
    (exec next (reset s) inp t).enReg k = true ↔ Enabled inp s.enReg k t := by
  refine @holds_iff _ _ (fun t => (exec next (reset s) inp t).enReg k = true) _ Iff.rfl
    (fun t => ?_) t
  rw [exec_succ, next_enReg, write, Writes, Writes]
  split
  · next h =>
    simp only [Bool.and_eq_true, decide_eq_true_eq] at h
    by_cases hk : (inp t).selAddr.toNat = k
    · subst hk
      rw [Function.update_self]
      cases (inp t).en <;> simp [h.1, h.2]
    · rw [Function.update_of_ne (Ne.symm hk)]
      simp [hk]
  · next h =>
    simp only [Bool.and_eq_true, decide_eq_true_eq, not_and] at h
    have hno : ∀ b, ¬ (k < p.ledsN * p.ledsM ∧ (inp t).sel = true ∧ (inp t).selAddr.toNat = k ∧
        (inp t).en = b) := by
      rintro b ⟨hk, hsel, rfl, -⟩
      exact h hsel hk
    simp [hno]

/-- **What a run lights**, and where. -/
theorem lit_run (hp : p.Room) (s : State p) (inp : ℕ → In p) (t : ℕ) :
    lit (exec next (reset s) inp t) (inp t) = true ↔ Lights inp s.enReg t := by
  have h := stands_run hp s inp t
  rw [lit, Bool.and_eq_true, current, visible_enReg, enReg_run, h.addr, Pwm.passes_iff, h.pwm]
  exact Iff.rfl

theorem place_run (hp : p.Room) (s : State p) (inp : ℕ → In p) (t : ℕ) :
    (visible (exec next (reset s) inp t) (inp t)).nIReg.toNat = place inp t % p.ledsN ∧
      (visible (exec next (reset s) inp t) (inp t)).mIReg.toNat = place inp t / p.ledsN := by
  have h := stands_run hp s inp t
  rw [← h.addr, h.scan.addr]
  constructor
  · rw [Nat.mul_add_mod', Nat.mod_eq_of_lt h.scan.n_lt]
  · rw [Nat.mul_comm, Nat.mul_add_div hp.n_pos, Nat.div_eq_of_lt h.scan.n_lt, Nat.add_zero]

theorem done_run (hp : p.Room) (s : State p) (inp : ℕ → In p) (t : ℕ) :
    doneTick (exec next (reset s) inp t) (inp t) = true ↔ Ends inp t := by
  have h := stands_run hp s inp t
  obtain ⟨-, -, -, -, hdone⟩ := h.scan.advance hp
  rw [doneTick, Bool.and_eq_true, hdone, h.addr, place,
    add_one_mod_eq_iff (Nat.mul_pos hp.n_pos hp.m_pos)]
  exact and_congr_left' h.tick

/-! ### Closed forms -/

/-- Where the scan stands depends on the reset and on `led_period` only. -/
lemma place_congr {inp' : ℕ → In p} (hr : ∀ t, (inp t).reset = (inp' t).reset)
    (hm : ∀ t, (inp t).ledPeriod = (inp' t).ledPeriod) : place inp t = place inp' t := by
  have hreset : resetBetween inp = resetBetween inp' :=
    funext fun t => by rw [resetBetween, resetBetween, hr, hr]
  have hover : countOver inp = countOver inp' :=
    funext fun x => funext fun t => by rw [countOver, countOver, hm]
  have hfree : freeSince inp = freeSince inp' := by
    funext t
    induction t with
    | zero => rfl
    | succ t ih => rw [freeSince, freeSince, ih, hreset]
  have hcount : countSince inp = countSince inp' := by
    funext t
    induction t with
    | zero => rfl
    | succ t ih => rw [countSince, countSince, ih, hreset, hover]
  unfold place moved
  rw [hfree, hcount]

/-- Released once and on a constant period, the scan moves on every `led_period + 1` clocks. -/
lemma place_released {m : BitVec p.ledPeriodBits} {r : ℕ} (h : Released inp m r) (hp : p.Room) :
    place inp t = (t - r - 1) / (m.toNat + 1) % (p.ledsN * p.ledsM) := by
  let dark : State p := ⟨fun _ => false, 0, 0, 0, Pwm.reset, ModMCounter.reset⟩
  rw [← (stands_run hp dark inp t).addr, (released_visible h hp t).2, positionAt]

end Blastit.Rtl.LedMatrix
