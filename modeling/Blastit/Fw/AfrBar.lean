import Blastit.Fw.Display
import Blastit.Fw.Leds
import Mathlib.Tactic.GCongr

/-!
`afr_update`: the lights between the middle of the AFR bar and the reading.

One end of the bar is the middle, the other one goes with the reading; they change places where
the reading is rich.
-/

namespace Blastit.Fw.AfrBar

open Blastit.Fw.Panel Blastit.Fw.Display Blastit.Fw.Leds

def written (s : Display.State) : List (LedArray × BitVec 32) :=
  (afrUpdate s).panel.ledsWrVal.drop s.panel.ledsWrVal.length

def bar (beyond : Beyond) (hold : ℕ → ℕ) (s : Display.State) (b : Board) : ℕ → Bool :=
  (b.run hold ((written s).flatMap (send beyond))).bits .ledArray2

/-- The lights that are on are those from `lo` to `hi`, the middle one among them. -/
structure Spans (m : ℕ → Bool) (lo hi : ℕ) : Prop where
  lit : ∀ a < ledsMax, m a = true ↔ lo ≤ a ∧ a ≤ hi
  left : lo ≤ ledsMax / 2
  right : ledsMax / 2 ≤ hi
  inside : hi < ledsMax

/-! ### The ends -/

def clamped (afr : ℚ) : ℚ := min afrWarnU (max afrWarnL afr)

/-- The end that goes with the reading. -/
def moving (afr : ℚ) : ℤ := min ledsMax (max 0 ⌈(ledsMax : ℚ) * ((clamped afr - 56 / 5) / 7)⌉)

/-- The ends of the lights that are there; the loop stops short of `LEDS_MAX`. -/
def lo (afr : ℚ) : ℕ := (min (15 : ℤ) (moving afr)).toNat

def hi (afr : ℚ) : ℕ := (min (29 : ℤ) (max 15 (moving afr))).toNat

section
variable {afr afr' load : ℚ}

lemma clamped_mono (h : afr ≤ afr') : clamped afr ≤ clamped afr' :=
  min_le_min_left _ (max_le_max_left _ h)

lemma moving_mono (h : afr ≤ afr') : moving afr ≤ moving afr' := by
  have hscaled : (ledsMax : ℚ) * ((clamped afr - 56 / 5) / 7) ≤
      ledsMax * ((clamped afr' - 56 / 5) / 7) := by
    have hclamped := clamped_mono h
    gcongr
  exact min_le_min_left _ (max_le_max_left _ (Int.ceil_mono hscaled))

lemma moving_nonneg (afr : ℚ) : 0 ≤ moving afr := le_min (by decide) (le_max_left _ _)

lemma moving_le (afr : ℚ) : moving afr ≤ ledsMax := min_le_left _ _

lemma lo_mono (h : afr ≤ afr') : lo afr ≤ lo afr' :=
  Int.toNat_le_toNat (min_le_min_left _ (moving_mono h))

lemma hi_mono (h : afr ≤ afr') : hi afr ≤ hi afr' :=
  Int.toNat_le_toNat (min_le_min_left _ (max_le_max_left _ (moving_mono h)))

/-- **The ends under load**: the middle and the reading, in order. -/
lemma afrEnds_of_le (h : afrMinLoad ≤ load) :
    afrEnds afr load = (min 15 (moving afr), max 15 (moving afr)) := by
  have hclamped : (if afrWarnU < (if afr < afrWarnL then afrWarnL else afr) then afrWarnU
      else if afr < afrWarnL then afrWarnL else afr) = clamped afr := by
    unfold clamped
    grind
  have hmoving : ∀ e : ℤ, (if (ledsMax : ℤ) < (if e < 0 then 0 else e) then (ledsMax : ℤ)
      else if e < 0 then 0 else e) = min (ledsMax : ℤ) (max 0 e) := by
    intro e
    grind
  have hmiddle : ((ledsMax : ℤ) / 2) = 15 := rfl
  simp only [afrEnds, hclamped, if_pos h, hmoving, hmiddle]
  change (if moving afr < 15 then (moving afr, 15) else (15, moving afr)) = _
  split
  · next hlt => rw [min_eq_right hlt.le, max_eq_left hlt.le]
  · next hge => rw [min_eq_left (not_lt.mp hge), max_eq_right (not_lt.mp hge)]

/-- Without it the whole bar is on. -/
lemma afrEnds_of_lt (h : load < afrMinLoad) : afrEnds afr load = (0, (ledsMax : ℤ)) := by
  simp [afrEnds, not_le.mpr h]

end

/-! ### The lights -/

def wanted (s : Display.State) (a : ℕ) : Bool :=
  decide ((afrEnds s.displayParams.afr s.displayParams.load).1 ≤ (a : ℤ) ∧
    (a : ℤ) ≤ (afrEnds s.displayParams.afr s.displayParams.load).2)

lemma ledsWrVal_afrUpdate (s : Display.State) : (afrUpdate s).panel.ledsWrVal =
    s.panel.ledsWrVal ++ (List.range ledsMax).map fun a =>
      (.ledArray2, command (BitVec.ofNat 32 a) (wanted s a)) := by
  obtain ⟨brightness, hpanel⟩ : ∃ brightness, (afrUpdate s).panel =
      ((List.range ledsMax).foldl
        (fun p i => p.ledsEnableLed .ledArray2 (BitVec.ofNat 32 i) (wanted s i))
        s.panel).ledsSetBrightness .ledArray2 brightness := ⟨_, rfl⟩
  rw [hpanel, ledsWrVal_ledsSetBrightness, ledsWrVal_foldl]

lemma written_eq (s : Display.State) :
    written s = (List.range ledsMax).map fun a =>
      (.ledArray2, command (BitVec.ofNat 32 a) (wanted s a)) := by
  rw [written, ledsWrVal_afrUpdate, List.drop_left]

variable (beyond : Beyond) (hold : ℕ → ℕ) (s : Display.State) (b : Board)

/-- **After the call every light shows what the loop asked for**, whatever it showed before. -/
lemma bar_eq {a : ℕ} (ha : a < ledsMax) : bar beyond hold s b a = wanted s a := by
  rw [bar, written_eq, List.flatMap_map]
  exact bits_ledsEnableLed_of_mem beyond b hold (wanted s) (fun a ha => List.mem_range.mp ha)
    (List.mem_range.mpr ha)

variable {s}

lemma spans_bar (h : afrMinLoad ≤ s.displayParams.load) :
    Spans (bar beyond hold s b) (lo s.displayParams.afr) (hi s.displayParams.afr) := by
  have h0 := moving_nonneg s.displayParams.afr
  have hmax : moving s.displayParams.afr ≤ 30 := moving_le s.displayParams.afr
  refine ⟨fun a ha => ?_, ?_, ?_, ?_⟩
  · have hlt : a < 30 := ha
    rw [bar_eq beyond hold s b ha, wanted, afrEnds_of_le h, decide_eq_true_iff, lo, hi]
    omega
  · simp only [lo, ledsMax]
    omega
  · simp only [hi, ledsMax]
    omega
  · simp only [hi, ledsMax]
    omega

/-- **The bar is an interval around its middle that moves with the reading**, and without load
all of it is on. -/
theorem bar_moves (s s' : Display.State) (beyond beyond' : Beyond) (hold hold' : ℕ → ℕ)
    (b b' : Board) :
    (afrMinLoad ≤ s.displayParams.load → afrMinLoad ≤ s'.displayParams.load →
      s.displayParams.afr ≤ s'.displayParams.afr →
      ∃ lo hi lo' hi', Spans (bar beyond hold s b) lo hi ∧
        Spans (bar beyond' hold' s' b') lo' hi' ∧ lo ≤ lo' ∧ hi ≤ hi') ∧
      (s.displayParams.load < afrMinLoad → ∀ a < ledsMax, bar beyond hold s b a = true) := by
  constructor
  · intro hload hload' h
    exact ⟨_, _, _, _, spans_bar beyond hold b hload, spans_bar beyond' hold' b' hload',
      lo_mono h, hi_mono h⟩
  · intro hload a ha
    have hlt : (a : ℤ) ≤ ledsMax := by omega
    rw [bar_eq beyond hold s b ha, wanted, afrEnds_of_lt hload]
    simp [hlt]

/-- A reading under some load. -/
def sample (afr load : ℚ) : Display.State :=
  { zeroed ⟨0, 0, 0, fun _ => 0, [], []⟩ with displayParams := ⟨0, afr, 0, 0, 0, load⟩ }

/-- Rich and lean under load, and a reading without any. -/
theorem bar_moves_sample :
    (∃ lo hi lo' hi', Spans (bar (fun _ _ => 0) (fun _ => 0) (sample 12 50) allLit) lo hi ∧
      Spans (bar (fun _ _ => 0) (fun _ => 0) (sample 16 50) allLit) lo' hi' ∧
      lo ≤ lo' ∧ hi ≤ hi') ∧
      ∀ a < ledsMax, bar (fun _ _ => 0) (fun _ => 0) (sample 12 10) allLit a = true :=
  ⟨(bar_moves (sample 12 50) (sample 16 50) _ _ _ _ _ _).1 (by decide) (by decide) (by decide),
    (bar_moves (sample 12 10) (sample 12 10) _ (fun _ _ => 0) _ (fun _ => 0) _ allLit).2
      (by decide)⟩

end Blastit.Fw.AfrBar
