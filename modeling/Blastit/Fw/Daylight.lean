import Blastit.Fw.Modulation

/-!
The brightness of the digits and the daylight sensor.

The register is written on a change of the sensor only, and `daylight_init` takes the first
value for granted: up to the first change it is as it was reset. `NIGHTTIME_DVSR` is an integer
quotient and zero, and so is the brightness at night.
-/

namespace Blastit.Fw.Display

open Blastit.Lib.Clocked Blastit.Fw.Panel

/-- `daylight_init` on the sensor value `d 0`, and `n` calls of `daylight_update` on the
following ones. -/
abbrev daylightRun (s : State) (d : ℕ → Bool) (n : ℕ) : State :=
  exec (fun s day => daylightUpdate day s) (daylightInit (d 0) s) (fun t => d (t + 1)) n

def twoThirds : BitVec 8 := BitVec.ofNat 8 (ssegBrightnessMax.toNat * 2 / 3)

def brightnessFor (day : Bool) : BitVec 8 := if day then ssegBrightnessMax else twoThirds

/-! ### The sensor's task -/

section
variable {s : State} {d : ℕ → Bool} {n : ℕ}

lemma isDaylight_daylightRun (s : State) (d : ℕ → Bool) (n : ℕ) :
    (daylightRun s d n).isDaylight = d n := by
  cases n with
  | zero => rfl
  | succ n =>
    rw [daylightRun, exec_succ, daylightUpdate]
    split
    · next h => exact h.symm
    · rfl

lemma ssegBrightness_daylightUpdate (day : Bool) (s : State) :
    (daylightUpdate day s).panel.ssegBrightness =
      if day = s.isDaylight then s.panel.ssegBrightness
      else if day then ssegBrightnessMax else 0 := by
  unfold daylightUpdate
  split
  · rfl
  · cases day <;> rfl

/-- **What the register holds**: the full brightness from the first return of daylight on, and
else what it was reset to. -/
lemma ssegBrightness_daylightRun (h0 : s.panel.ssegBrightness = 0) (d : ℕ → Bool) (n : ℕ) :
    (daylightRun s d n).panel.ssegBrightness =
      if d n = true ∧ ∃ k < n, d k = false then ssegBrightnessMax else 0 := by
  induction n with
  | zero => simpa [daylightInit] using h0
  | succ n ih =>
    rw [daylightRun, exec_succ, ssegBrightness_daylightUpdate, ← daylightRun, ih,
      isDaylight_daylightRun]
    by_cases hsame : d (n + 1) = d n
    · -- no change, and nothing written
      rw [if_pos hsame, hsame]
      refine if_congr (and_congr_right fun hday => ?_) rfl rfl
      constructor
      · rintro ⟨k, hk, hnight⟩
        exact ⟨k, by omega, hnight⟩
      · rintro ⟨k, hk, hnight⟩
        refine ⟨k, ?_, hnight⟩
        rcases Nat.lt_succ_iff_lt_or_eq.mp hk with hlt | rfl
        · exact hlt
        · rw [hday] at hnight
          cases hnight
    · rw [if_neg hsame]
      cases hday : d (n + 1) with
      | true =>
        have hnight : d n = false := by simpa [hday] using hsame
        rw [if_pos rfl, if_pos ⟨rfl, n, Nat.lt_succ_self n, hnight⟩]
      | false => simp

/-- **The register holds the brightness for the last sensor value exactly if that is daylight
and some value before it was not.** -/
theorem ssegBrightness_follows_iff (h0 : s.panel.ssegBrightness = 0) (d : ℕ → Bool) (n : ℕ) :
    (daylightRun s d n).panel.ssegBrightness = brightnessFor (d n) ↔
      d n = true ∧ ∃ k < n, d k = false := by
  rw [ssegBrightness_daylightRun h0, brightnessFor]
  cases d n with
  | false =>
    have hdark : (0 : BitVec 8) ≠ twoThirds := by decide
    simpa using hdark
  | true =>
    have hfull : (0 : BitVec 8) ≠ ssegBrightnessMax := by decide
    by_cases hnight : ∃ k < n, d k = false
    · simp [hnight]
    · simpa [hnight] using hfull

end

/-! ### The display -/

section
variable {bcd1 : BitVec 32 → BitVec 32} {s : State}

/-- What the sensor's task keeps, and writes. -/
def dimmer (s : State) : Bool × BitVec 8 := (s.isDaylight, s.panel.ssegBrightness)

lemma dimmer_warningUpdate (s : State) : dimmer (warningUpdate s) = dimmer s := by
  unfold warningUpdate warningShine warningSwitch blinkerStart blinkerStop slinkAdd
  split_ifs <;> rfl

/-- **No other task touches the sensor's value or the brightness.** -/
lemma dimmer_update {t : Task} (ht : t ≠ .daylight) (day : Bool) (s : State) :
    dimmer (t.update bcd1 day s) = dimmer s := by
  cases t with
  | daylight => exact absurd rfl ht
  | pwmUpdate =>
    refine (foldl_keeps (f := dimmer) (fun s b => ?_) s s.sdata : _)
    unfold blinkerVisit
    split <;> rfl
  | afrReadout | oilReadout | coolantReadout | intakeReadout =>
    exact congrArg (Prod.mk s.isDaylight)
      (readoutShow_keeps (f := Panel.ssegBrightness) (fun _ _ _ _ => rfl) bcd1 _ _)
  | mil => exact dimmer_warningUpdate s
  | boost =>
    have hfill : ∀ lo hi en p, (ledsFill .ledArray1 lo hi en p).ssegBrightness = p.ssegBrightness :=
      fun _ _ _ _ => ledsFill_keeps (f := Panel.ssegBrightness) fun _ _ => rfl
    simp only [dimmer, Task.update, boostUpdate, ledsSetBrightness, hfill]
  | afr =>
    simp only [dimmer, Task.update, afrUpdate, ledsSetBrightness]
    refine congrArg (Prod.mk s.isDaylight) (foldl_keeps (f := Panel.ssegBrightness) ?_ s.panel _)
    exact fun _ _ => rfl

lemma dimmer_frame (s : State) (f : Frame) :
    dimmer (frame bcd1 s f) = dimmer (daylightUpdate f.daylight s) := by
  have hrest : ∀ (l : List Task), .daylight ∉ l → ∀ s : State,
      dimmer (l.foldl (fun s t => t.update bcd1 f.daylight s) s) = dimmer s := by
    intro l
    induction l with
    | nil => exact fun _ s => rfl
    | cons t l ih =>
      intro hl s
      have ht : t ≠ .daylight := fun h => hl (by simp [h])
      rw [List.foldl_cons, ih (fun h => hl (List.mem_cons_of_mem t h)), dimmer_update ht]
  have hfirst : dimmer (daylightUpdate f.daylight { s with displayParams := f.displayParams }) =
      dimmer (daylightUpdate f.daylight s) := by
    unfold daylightUpdate
    dsimp only
    split <;> rfl
  rw [frame, tasks, List.foldl_cons, hrest _ (by decide)]
  exact hfirst

lemma dimmer_daylightUpdate_congr {s s' : State} (h : dimmer s = dimmer s') (day : Bool) :
    dimmer (daylightUpdate day s) = dimmer (daylightUpdate day s') := by
  obtain ⟨hday, hbright⟩ := Prod.mk.inj h
  unfold daylightUpdate
  rw [hday]
  split
  · exact h
  · rfl

/-- **In the display's frames the brightness is that of the sensor's task alone.** -/
theorem dimmer_frames (day : Bool) (panel : Panel) (inp : ℕ → Frame) (n : ℕ) :
    dimmer (frames bcd1 day panel inp n) =
      dimmer (daylightRun (zeroed panel) (fun k => if k = 0 then day else (inp (k - 1)).daylight)
        n) := by
  induction n with
  | zero => rfl
  | succ n ih =>
    rw [frames, exec_succ, daylightRun, exec_succ, dimmer_frame]
    exact dimmer_daylightUpdate_congr ih _

end

/-- Dusk, and daylight again. -/
theorem ssegBrightness_after_night :
    (daylightRun (zeroed ⟨0, 0, 0, fun _ => 0, [], []⟩) (fun k => k != 1) 2).panel.ssegBrightness =
      brightnessFor true :=
  (ssegBrightness_follows_iff rfl _ 2).mpr ⟨rfl, 1, by decide, rfl⟩

/-- Daylight from the start on, and a night. -/
theorem not_ssegBrightness_follows :
    (daylightRun (zeroed ⟨0, 0, 0, fun _ => 0, [], []⟩) (fun _ => true) 1).panel.ssegBrightness ≠
      brightnessFor true ∧
    (daylightRun (zeroed ⟨0, 0, 0, fun _ => 0, [], []⟩) (fun k => k == 0) 1).panel.ssegBrightness ≠
      brightnessFor false := by
  constructor <;> decide

end Blastit.Fw.Display
