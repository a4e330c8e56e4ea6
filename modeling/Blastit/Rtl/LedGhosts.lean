import Blastit.Rtl.LedSharing
import Blastit.Rtl.LedWaves

/-!
When the two LED bars show a light that is not enabled.

The row lines of both bars are driven at all times, the column lines by the bar that is
selected: where both scanners are lit, their column and row cross at a third light. Which
light that is on a clock is settled by the waveforms the MCU drives.
-/

namespace Blastit.Rtl.LedBars

open Blastit.Lib.Clocked Blastit.Lib.Flags Blastit.Rtl.LedMatrix

def waves1 (inp : ℕ → In) (t : ℕ) : LedMatrix.In params := (inp t).wires1

def waves2 (inp : ℕ → In) (t : ℕ) : LedMatrix.In params := (inp t).wires2

/-- The second bar has the column lines: the last scan that ended was one of the first bar and
of it alone. A selector that starts at 0 or 1 stands for a scan of the second or of the first
bar; one that starts at another value gives them to the second bar for good. -/
def SecondShown (s : State) (inp : ℕ → In) (t : ℕ) : Prop :=
  ¬ Selects s ∨
    Holds (s.ledIdxReg = 1) (fun u => Ends (waves1 inp) u ∧ ¬ Ends (waves2 inp) u)
      (Ends (waves2 inp)) (t + 1)

/-- The light in the row of light `k` and the column of light `l`. -/
def crossing (k l : ℕ) : ℕ := k / 10 * 10 + l % 10

/-- Where the lights of both scanners are on, the light at which the row of the one that is not
shown crosses the column of the other is enabled. -/
def CrossesEnabled (s : State) (inp : ℕ → In) (t : ℕ) : Prop :=
  Lights (waves1 inp) s.leds1.enReg t → Lights (waves2 inp) s.leds2.enReg t →
    (SecondShown s inp t → Enabled (waves1 inp) s.leds1.enReg
      (crossing (place (waves1 inp) t) (place (waves2 inp) t)) t) ∧
    (¬ SecondShown s inp t → Enabled (waves2 inp) s.leds2.enReg
      (crossing (place (waves2 inp) t) (place (waves1 inp) t)) t)

variable {s : State} {inp : ℕ → In} {t : ℕ}

/-! ### The run and the waveforms -/

lemma done1_run (s : State) (inp : ℕ → In) (t : ℕ) :
    done1 (run s inp t) (inp t) = true ↔ Ends (waves1 inp) t := by
  rw [done1, run_leds1]
  exact done_run params_room s.leds1 (waves1 inp) t

lemma done2_run (s : State) (inp : ℕ → In) (t : ℕ) :
    done2 (run s inp t) (inp t) = true ↔ Ends (waves2 inp) t := by
  rw [done2, run_leds2]
  exact done_run params_room s.leds2 (waves2 inp) t

/-- **The selector**: a scan of the second bar that ends clears it, one of the first bar alone
sets it. -/
lemma selected_run (s : State) (inp : ℕ → In) (t : ℕ) :
    ledIdxNext (run s inp t) (inp t) ≠ 0 ↔ SecondShown s inp t := by
  by_cases hs : Selects s
  · rw [SecondShown, or_iff_right (not_not.mpr hs)]
    have h0 : (run s inp 0).ledIdxReg ≠ 0 ↔ s.ledIdxReg = 1 := by
      rcases hs with hs | hs
      · exact iff_of_false (fun h => h hs) (by rw [hs]; decide)
      · have hreg : (run s inp 0).ledIdxReg = s.ledIdxReg := rfl
        exact iff_of_true (by rw [hreg, hs]; decide) hs
    refine @holds_iff _ _ (fun t => (run s inp t).ledIdxReg ≠ 0) _ h0 (fun t => ?_) (t + 1)
    have hnext : (run s inp (t + 1)).ledIdxReg = ledIdxNext (run s inp t) (inp t) := rfl
    rw [hnext, (hs.run inp t).ledIdxNext_eq, ← done1_run s inp t, ← done2_run s inp t]
    cases done2 (run s inp t) (inp t) <;> cases done1 (run s inp t) (inp t) <;> simp
  · exact iff_of_true (second_stuck hs inp t) (Or.inl hs)

/-- **One clock of a run**, by the waveforms. -/
lemma noGhost_clock_iff (s : State) (inp : ℕ → In) (t : ℕ) :
    NoGhost (run s inp t) (inp t) ↔ CrossesEnabled s inp t := by
  obtain ⟨h1, h2⟩ := scan_run s inp t
  have hlit1 : lit1 (run s inp t) (inp t) = true ↔ Lights (waves1 inp) s.leds1.enReg t := by
    rw [lit1, run_leds1]
    exact lit_run params_room s.leds1 (waves1 inp) t
  have hlit2 : lit2 (run s inp t) (inp t) = true ↔ Lights (waves2 inp) s.leds2.enReg t := by
    rw [lit2, run_leds2]
    exact lit_run params_room s.leds2 (waves2 inp) t
  obtain ⟨hcol1, hrow1⟩ := place_run params_room s.leds1 (waves1 inp) t
  obtain ⟨hcol2, hrow2⟩ := place_run params_room s.leds2 (waves2 inp) t
  rw [noGhost_iff h1 h2, hlit1, hlit2, row1, row2, col1, col2, run_leds1, run_leds2, CrossesEnabled,
    ← selected_run s inp t, not_not, ← enReg_run, ← enReg_run, crossing, crossing, ← hcol1, ← hrow1,
    ← hcol2, ← hrow2]
  rfl

/-- **No run shows a ghost before a clock that crosses a disabled light**: whatever the resets,
the period, the brightnesses and the writes are, the lights on are enabled on every clock up to
`T` exactly when those waveforms cross enabled lights only. -/
theorem noGhost_run_iff (s : State) (inp : ℕ → In) (T : ℕ) :
    (∀ t ≤ T, NoGhost (run s inp t) (inp t)) ↔ ∀ t ≤ T, CrossesEnabled s inp t :=
  forall₂_congr fun t _ => noGhost_clock_iff s inp t

/-- Every light of the first bar enabled, and one in the third column of the second. -/
def ghostly : State where
  leds1 := ⟨fun _ => true, 0, 0, 0, Pwm.reset, ModMCounter.reset⟩
  leds2 := ⟨fun k => k == 2, 0, 0, 0, Pwm.reset, ModMCounter.reset⟩
  ledIdxReg := 0

/-- The second matrix out of reset at clock 0, the first one at clock 3; a tick a clock. -/
def outOfStep (t : ℕ) : In := ⟨0, ⟨0xff, if t < 3 then 2 else 0, 0⟩, ⟨0xff, 0, 0⟩⟩

theorem ghost_out_of_step : ¬ ∀ t, NoGhost (run ghostly outOfStep t) (outOfStep t) := by
  intro h
  have hg : g (run ghostly outOfStep 3) (outOfStep 3) 0 = true := by decide
  have hd : d (run ghostly outOfStep 3) (outOfStep 3) (3 + 0) = true := by decide
  have hen : (run ghostly outOfStep 3).leds2.enReg (0 * 10 + 0) = false := by decide
  rw [(h 3 0 (by decide) 0 (by decide)).2 hg hd] at hen
  cases hen

/-! ### In step -/

lemma crossing_self (k : ℕ) : crossing k k = k := by
  rw [crossing]
  omega

/-- **Scanners that leave reset together never show a ghost**, whatever is written. -/
theorem noGhost_of_together
    (h : ∀ t, (inp t).leds1.resetControl.getLsbD 1 = (inp t).leds2.resetControl.getLsbD 1) (t : ℕ) :
    NoGhost (run s inp t) (inp t) := by
  have hplace : place (waves1 inp) t = place (waves2 inp) t := place_congr h fun _ => rfl
  rw [noGhost_clock_iff]
  rintro ⟨hbit1, -⟩ ⟨hbit2, -⟩
  rw [hplace, crossing_self]
  exact ⟨fun _ => hplace ▸ hbit1, fun _ => hbit2⟩

/-! ### A constant period -/

variable {m : BitVec 24} {r₁ r₂ : ℕ}

/-- Where a scanner stands `t - r` clocks after its release. -/
def placeAt (m : BitVec 24) (r t : ℕ) : ℕ := (t - r - 1) / clocks m % 30

lemma Steady.enabled1_iff (h : Steady inp m r₁ r₂) {k : ℕ} :
    Enabled (waves1 inp) s.leds1.enReg k t ↔ s.leds1.enReg k = true := by
  have hbit := enReg_run s.leds1 (waves1 inp) k t
  rw [← hbit, show exec LedMatrix.next (reset s.leds1) (waves1 inp) t = (run s inp t).leds1 from
    (run_leds1 s inp t).symm, (h.enReg s t).1]

lemma Steady.enabled2_iff (h : Steady inp m r₁ r₂) {k : ℕ} :
    Enabled (waves2 inp) s.leds2.enReg k t ↔ s.leds2.enReg k = true := by
  have hbit := enReg_run s.leds2 (waves2 inp) k t
  rw [← hbit, show exec LedMatrix.next (reset s.leds2) (waves2 inp) t = (run s inp t).leds2 from
    (run_leds2 s inp t).symm, (h.enReg s t).2]

lemma Steady.shines1 (h : Steady inp m r₁ r₂) : Shines (waves1 inp) t := by
  have hb : (waves1 inp t).brightness = 0xff := h.bright1 t
  rw [Shines, hb]
  exact ⟨by decide, Nat.le_of_lt_succ (Nat.mod_lt _ (by decide))⟩

lemma Steady.shines2 (h : Steady inp m r₁ r₂) : Shines (waves2 inp) t := by
  have hb : (waves2 inp t).brightness = 0xff := h.bright2 t
  rw [Shines, hb]
  exact ⟨by decide, Nat.le_of_lt_succ (Nat.mod_lt _ (by decide))⟩

/-- On a constant period, at full brightness and with no writes, the bits at the two places of
the scan settle it. -/
theorem Steady.crossesEnabled_iff (h : Steady inp m r₁ r₂) :
    CrossesEnabled s inp t ↔
      (s.leds1.enReg (placeAt m r₁ t) = true → s.leds2.enReg (placeAt m r₂ t) = true →
        (SecondShown s inp t →
          s.leds1.enReg (crossing (placeAt m r₁ t) (placeAt m r₂ t)) = true) ∧
        (¬ SecondShown s inp t →
          s.leds2.enReg (crossing (placeAt m r₂ t) (placeAt m r₁ t)) = true)) := by
  have hplace1 : place (waves1 inp) t = placeAt m r₁ t := place_released h.released1 params_room
  have hplace2 : place (waves2 inp) t = placeAt m r₂ t := place_released h.released2 params_room
  rw [CrossesEnabled, Lights, Lights, and_iff_left h.shines1, and_iff_left h.shines2,
    h.enabled1_iff, h.enabled2_iff, h.enabled1_iff, h.enabled2_iff, hplace1, hplace2]

end Blastit.Rtl.LedBars
