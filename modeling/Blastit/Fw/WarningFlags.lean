import Blastit.Fw.Display
import Blastit.Lib.Clocked
import Mathlib.Tactic.NormNum

/-!
The warning flags over a run of frames.

`warning_clear` tests for a clear flag before it clears it, so it changes nothing and each
flag is a latch: after a frame it says that the reading has been outside its limits in some
frame so far.
-/

namespace Blastit.Fw.Display

open Blastit.Lib Blastit.Lib.Clocked

/-! ### The flag word -/

def Flagged (flags : BitVec 32) (f : WarningFlag) : Prop := Mask.Has flags f.idx

lemma WarningFlag.idx_lt (f : WarningFlag) : f.idx < 32 := by
  cases f <;> decide

lemma WarningFlag.idx_inj {f g : WarningFlag} : f.idx = g.idx ↔ f = g := by
  cases f <;> cases g <;> decide

lemma not_flagged_zero (f : WarningFlag) : ¬ Flagged 0 f := Mask.not_has_zero

lemma and_val_eq_zero {flags : BitVec 32} {f : WarningFlag} :
    flags &&& f.val = 0 ↔ ¬ Flagged flags f := not_not.symm

lemma flagged_warningSet (flags : BitVec 32) (f g : WarningFlag) :
    Flagged (warningSet flags f).2 g ↔ g = f ∨ Flagged flags g := by
  unfold warningSet
  split
  · exact (Mask.has_or flags g.idx_lt f.idx_lt).trans (or_congr_left WarningFlag.idx_inj)
  · next hset =>
    rw [and_val_eq_zero, not_not] at hset
    constructor
    · exact Or.inr
    · rintro (rfl | hg)
      · exact hset
      · exact hg

/-- `warning_clear` never clears its flag. -/
lemma warningClear_flags (flags : BitVec 32) (f : WarningFlag) :
    (warningClear flags f).2 = flags := by
  unfold warningClear
  split
  · next hclear => exact Mask.and_not_of_not_has (and_val_eq_zero.mp hclear)
  · rfl

/-! ### Readings and limits -/

/-- The five parameters that are watched, by their flags. -/
def WarningFlag.reading (p : DisplayParams) : WarningFlag → ℚ
  | .afrWarn => p.afr
  | .boostWarn => p.boost
  | .oilWarn => p.oilTemp
  | .coolantWarn => p.coolantTemp
  | .intakeWarn => p.intakeTemp

def WarningFlag.lower : WarningFlag → ℚ
  | .afrWarn => 11
  | .boostWarn => -10
  | .oilWarn => 160
  | .coolantWarn => 160
  | .intakeWarn => 0

def WarningFlag.upper : WarningFlag → ℚ
  | .afrWarn => 18
  | .boostWarn => 10
  | .oilWarn => 265
  | .coolantWarn => 240
  | .intakeWarn => 170

def Outside (p : DisplayParams) (f : WarningFlag) : Prop :=
  ¬(f.lower ≤ f.reading p ∧ f.reading p ≤ f.upper)

instance (p : DisplayParams) (f : WarningFlag) : Decidable (Outside p f) :=
  inferInstanceAs (Decidable (¬ _))

/-- Every flag says whether its reading is outside its limits. -/
def Tracks (flags : BitVec 32) (p : DisplayParams) : Prop := ∀ f, Flagged flags f ↔ Outside p f

/-! ### One frame -/

section
variable (bcd1 : BitVec 32 → BitVec 32) (s : State)

/-- The readout `t` watches `f`. -/
structure ReadoutTask.Watches (t : ReadoutTask) (f : WarningFlag) : Prop where
  flag : t.flag = f
  limits : ∀ p, ¬(t.warnL ≤ t.value p ∧ t.value p ≤ t.warnU) ↔ Outside p f

lemma watches_afr : afrReadoutTask.Watches .afrWarn := ⟨rfl, fun _ => Iff.rfl⟩
lemma watches_oil : oilReadoutTask.Watches .oilWarn := ⟨rfl, fun _ => Iff.rfl⟩
lemma watches_coolant : coolantReadoutTask.Watches .coolantWarn := ⟨rfl, fun _ => Iff.rfl⟩
lemma watches_intake : intakeReadoutTask.Watches .intakeWarn := ⟨rfl, fun _ => Iff.rfl⟩

lemma flagged_readoutUpdate {t : ReadoutTask} {f : WarningFlag} (ht : t.Watches f)
    (g : WarningFlag) : Flagged (readoutUpdate bcd1 t s).flags g ↔
      (g = f ∧ Outside s.displayParams f) ∨ Flagged s.flags g := by
  simp only [readoutUpdate, ht.limits, ht.flag, warningClear_flags]
  split
  · next hout => simp [flagged_warningSet, hout]
  · next hin => simp [hin]

/-- The boost bar does the same by hand. -/
lemma flagged_boostUpdate (g : WarningFlag) : Flagged (boostUpdate s).flags g ↔
    (g = .boostWarn ∧ Outside s.displayParams .boostWarn) ∨ Flagged s.flags g := by
  have hlim : ¬(boostMin ≤ s.displayParams.boost ∧ s.displayParams.boost ≤ boostMax) ↔
      Outside s.displayParams .boostWarn := Iff.rfl
  simp only [boostUpdate, boostFlags, hlim, warningClear_flags, ite_self]
  split
  · next h => simp [flagged_warningSet, h.1]
  · next h =>
    rw [and_val_eq_zero, not_and_not_right] at h
    constructor
    · exact Or.inr
    · rintro (⟨rfl, hout⟩ | hg)
      · exact h hout
      · exact hg

/-- **The effect of a frame on a flag**: it is set when the reading is outside, and kept. -/
theorem flagged_frame (fr : Frame) (g : WarningFlag) :
    Flagged (frame bcd1 s fr).flags g ↔ Outside fr.displayParams g ∨ Flagged s.flags g := by
  simp only [frame, tasks, List.foldl_cons, List.foldl_nil, Task.update, flags_afrUpdate,
    flagged_boostUpdate, flags_warningUpdate, flagged_readoutUpdate _ _ watches_intake,
    flagged_readoutUpdate _ _ watches_coolant, flagged_readoutUpdate _ _ watches_oil,
    flagged_readoutUpdate _ _ watches_afr, flags_blinkerUpdate, flags_daylightUpdate,
    displayParams_warningUpdate, displayParams_readoutUpdate, displayParams_blinkerUpdate,
    displayParams_daylightUpdate]
  cases g <;> simp

end

/-! ### Runs -/

lemma not_flagged_initial (daylight : Bool) (panel : Panel) (f : WarningFlag) :
    ¬ Flagged (initial daylight panel).flags f := by
  have h0 : (initial daylight panel).flags = 0 := rfl
  rw [h0]
  exact not_flagged_zero f

/-- **The flags track the readings exactly as long as no reading comes back inside its
limits.** -/
theorem tracks_iff (bcd1 : BitVec 32 → BitVec 32) (daylight : Bool) (panel : Panel)
    (inp : ℕ → Frame) (n : ℕ) :
    (∀ t < n, Tracks (exec (frame bcd1) (initial daylight panel) inp (t + 1)).flags
        (inp t).displayParams) ↔
      ∀ t < n, ∀ u ≤ t, ∀ f, Outside (inp u).displayParams f → Outside (inp t).displayParams f := by
  have hlatch : ∀ f, (∀ t < n,
      Flagged (exec (frame bcd1) (initial daylight panel) inp (t + 1)).flags f ↔
        Outside (inp t).displayParams f) ↔
      ∀ t < n, ∀ u ≤ t, Outside (inp u).displayParams f → Outside (inp t).displayParams f := by
    intro f
    refine latch_follows_iff (P := fun s : State => Flagged s.flags f)
      (Q := fun fr : Frame => Outside fr.displayParams f) ?_ (not_flagged_initial _ _ f) n
    exact fun s fr => flagged_frame bcd1 s fr f
  constructor
  · intro h t ht u hu f
    exact (hlatch f).mp (fun v hv => h v hv f) t ht u hu
  · intro h t ht f
    exact (hlatch f).mpr (fun v hv u hu => h v hv u hu f) t ht

/-- A lean mixture in the first frame, normal readings from the second on. -/
def leanOnce : ℕ → Frame
  | 0 => ⟨⟨0, 20, 200, 200, 100, 50⟩, true⟩
  | _ + 1 => ⟨⟨0, 15, 200, 200, 100, 50⟩, true⟩

/-- The flag of a reading that came back stays set. -/
theorem not_tracks_leanOnce :
    ¬ Tracks (exec (frame id) (initial true ⟨0, 0, 0, fun _ => 0, [], []⟩) leanOnce 2).flags
        (leanOnce 1).displayParams := by
  intro h
  have hset : Flagged (exec (frame id) (initial true ⟨0, 0, 0, fun _ => 0, [], []⟩)
      leanOnce 2).flags .afrWarn := by
    rw [exec_succ, flagged_frame, exec_succ, flagged_frame]
    exact Or.inr (Or.inl (by decide +kernel))
  exact absurd ((h .afrWarn).mp hset) (by decide +kernel)

end Blastit.Fw.Display
