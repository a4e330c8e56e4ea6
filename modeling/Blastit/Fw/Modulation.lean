import Blastit.Fw.WarningLamp

/-!
The bars that modulate their brightness, and the blinkers they take it from.

`boost_update` and `afr_update` read the duty cycle of a blinker of their own, which neither of
them, and no other task, ever starts: the list of `pwm_update_task` holds the blinker of the
lamp or none. A bar that modulates is dark.
-/

namespace Blastit.Fw.Display

open Blastit.Lib.Clocked Blastit.Fw.Panel

/-- The state on which a frame calls the routine of the task `t`. -/
def called (bcd1 : BitVec 32 → BitVec 32) (s : State) (f : Frame) (t : Task) : State :=
  (tasks.takeWhile (· ≠ t)).foldl (fun s t => t.update bcd1 f.daylight s)
    { s with displayParams := f.displayParams }

/-- `modulate` in `boost_update`. -/
def BoostModulates (s : State) : Prop :=
  Flagged (boostFlags s.displayParams.boost s.flags) .boostWarn

/-- `modulate` in `afr_update`. -/
def AfrModulates (s : State) : Prop := Flagged s.flags .afrWarn ∧ afrMinLoad ≤ s.displayParams.load

/-- A bar that has modulated in the frame has an active blinker after it. -/
structure Blinks (bcd1 : BitVec 32 → BitVec 32) (s : State) (f : Frame) : Prop where
  boost : BoostModulates (called bcd1 s f .boost) → Active (frame bcd1 s f) .boost
  afr : AfrModulates (called bcd1 s f .afr) → Active (frame bcd1 s f) .afr

section
variable {bcd1 : BitVec 32 → BitVec 32} {s : State} {f : Frame} {b : Blinker}

/-! ### The bars -/

instance (s : State) : Decidable (BoostModulates s) :=
  inferInstanceAs (Decidable (Lib.Mask.Has _ _))

instance (s : State) : Decidable (AfrModulates s) :=
  inferInstanceAs (Decidable (Lib.Mask.Has _ _ ∧ _))

lemma ledsBrightness_boostUpdate : (boostUpdate s).panel.ledsBrightness .ledArray1 =
    barBrightness (decide (BoostModulates s)) (s.bdata .boost) s.isDaylight := by
  simp only [boostUpdate, ledsSetBrightness, Function.update_self]
  rfl

lemma ledsBrightness_afrUpdate : (afrUpdate s).panel.ledsBrightness .ledArray2 =
    barBrightness (decide (AfrModulates s)) (s.bdata .afr) s.isDaylight := by
  simp only [afrUpdate, ledsSetBrightness, Function.update_self]
  rfl

lemma ledsBrightness_afrUpdate_boost :
    (afrUpdate s).panel.ledsBrightness .ledArray1 = s.panel.ledsBrightness .ledArray1 := by
  simp only [afrUpdate, ledsSetBrightness]
  rw [Function.update_of_ne (by decide)]
  refine foldl_keeps (f := fun p : Panel => p.ledsBrightness .ledArray1) ?_ s.panel _
  exact fun _ _ => rfl

/-! ### The end of a frame -/

lemma takeWhile_afr : tasks.takeWhile (· ≠ .afr) = tasks.takeWhile (· ≠ .boost) ++ [.boost] := by
  decide

lemma tasks_eq : tasks = tasks.takeWhile (· ≠ .boost) ++ [.boost, .afr] := by decide

lemma called_afr : called bcd1 s f .afr = boostUpdate (called bcd1 s f .boost) := by
  rw [called, takeWhile_afr, List.foldl_append]
  rfl

lemma frame_eq : frame bcd1 s f = afrUpdate (called bcd1 s f .afr) := by
  rw [called_afr, frame, tasks_eq, List.foldl_append]
  rfl

lemma displayParams_boostUpdate : (boostUpdate s).displayParams = s.displayParams := rfl

lemma displayParams_called : (called bcd1 s f .afr).displayParams = f.displayParams := by
  rw [called_afr, displayParams_boostUpdate, called]
  simp [tasks, Task.update]

lemma boostModulates_iff :
    BoostModulates (called bcd1 s f .boost) ↔ Flagged (frame bcd1 s f).flags .boostWarn := by
  rw [frame_eq, flags_afrUpdate, called_afr]
  rfl

lemma afrModulates_iff : AfrModulates (called bcd1 s f .afr) ↔
    Flagged (frame bcd1 s f).flags .afrWarn ∧ afrMinLoad ≤ f.displayParams.load := by
  rw [AfrModulates, displayParams_called, frame_eq, flags_afrUpdate]

/-! ### The list of blinkers -/

/-- Nothing but the lamp's blinker is listed, and the others stand as they started. -/
structure OnlyLamp (s : State) : Prop where
  listed : ∀ b ∈ s.sdata, b = .mil
  still : ∀ b ≠ .mil, (s.bdata b).dutyCycle = 0

lemma OnlyLamp.not_active (h : OnlyLamp s) (hb : b ≠ .mil) : ¬ Active s b :=
  fun hact => hb (h.listed b hact.1)

lemma OnlyLamp.blinkerVisit (h : OnlyLamp s) (hb : b = .mil) :
    OnlyLamp (Display.blinkerVisit s b) := by
  subst hb
  refine ⟨fun c hc => h.listed c ?_, fun c hc => ?_⟩
  · rwa [(blinkerVisit_frame s .mil).2.2.1] at hc
  · unfold Display.blinkerVisit
    split
    · dsimp only
      rw [Function.update_of_ne hc]
      exact h.still c hc
    · exact h.still c hc

lemma OnlyLamp.blinkerUpdate (h : OnlyLamp s) : OnlyLamp (Display.blinkerUpdate s) := by
  have hfold : ∀ (l : List Blinker) (s : State), (∀ b ∈ l, b = .mil) → OnlyLamp s →
      OnlyLamp (l.foldl Display.blinkerVisit s) := by
    intro l
    induction l with
    | nil => exact fun s _ hs => hs
    | cons b l ih =>
      intro s hl hs
      exact ih _ (fun c hc => hl c (List.mem_cons_of_mem b hc))
        (hs.blinkerVisit (hl b List.mem_cons_self))
  have hvisited := hfold s.sdata s h.listed h
  exact ⟨fun b hb => hvisited.listed b (List.mem_of_mem_filter hb), hvisited.still⟩

lemma OnlyLamp.slinkAdd (h : OnlyLamp s) : OnlyLamp (Display.slinkAdd .mil s) := by
  unfold Display.slinkAdd
  split
  · exact h
  · refine ⟨fun b hb => ?_, fun b hb => ?_⟩
    · rcases List.mem_append.mp hb with hb | hb
      · exact h.listed b hb
      · exact List.mem_singleton.mp hb
    · dsimp only
      rw [Function.update_of_ne hb]
      exact h.still b hb

lemma OnlyLamp.mil (h : OnlyLamp s) (d : BlinkerData) :
    OnlyLamp { s with bdata := Function.update s.bdata .mil d } where
  listed := h.listed
  still b hb := by
    dsimp only
    rw [Function.update_of_ne hb]
    exact h.still b hb

lemma OnlyLamp.of_eq {s' : State} (h : OnlyLamp s) (hsdata : s'.sdata = s.sdata)
    (hbdata : s'.bdata = s.bdata) : OnlyLamp s' := by
  refine ⟨?_, ?_⟩
  · rw [hsdata]
    exact h.listed
  · rw [hbdata]
    exact h.still

lemma OnlyLamp.warningUpdate (h : OnlyLamp s) : OnlyLamp (Display.warningUpdate s) := by
  have hswitch : OnlyLamp (warningSwitch s) := by
    unfold warningSwitch
    split
    · exact ((h.mil _).slinkAdd).of_eq rfl rfl
    · split
      · exact (h.mil _).of_eq rfl rfl
      · exact h
  unfold Display.warningUpdate warningShine
  split
  · exact hswitch.of_eq rfl rfl
  · exact hswitch

/-- **No task lists a blinker but the lamp's.** -/
lemma OnlyLamp.update (h : OnlyLamp s) (daylight : Bool) (t : Task) :
    OnlyLamp (t.update bcd1 daylight s) := by
  cases t with
  | daylight =>
    simp only [Task.update, daylightUpdate]
    split
    · exact h
    · exact h.of_eq rfl rfl
  | pwmUpdate => exact h.blinkerUpdate
  | afrReadout | oilReadout | coolantReadout | intakeReadout =>
    refine h.of_eq ?_ ?_ <;> simp only [Task.update, readoutUpdate]
  | mil => exact h.warningUpdate
  | boost => refine h.of_eq ?_ ?_ <;> simp only [Task.update, boostUpdate]
  | afr => refine h.of_eq ?_ ?_ <;> simp only [Task.update, afrUpdate]

lemma OnlyLamp.params (h : OnlyLamp s) (p : DisplayParams) :
    OnlyLamp { s with displayParams := p } := h.of_eq rfl rfl

lemma OnlyLamp.called (h : OnlyLamp s) (f : Frame) (t : Task) :
    OnlyLamp (Display.called bcd1 s f t) := by
  unfold Display.called
  exact foldl_inv (fun _ t hs => hs.update f.daylight t) (h.params f.displayParams) _

lemma OnlyLamp.frame (h : OnlyLamp s) (f : Frame) : OnlyLamp (Display.frame bcd1 s f) := by
  unfold Display.frame
  exact foldl_inv (fun _ t hs => hs.update f.daylight t) (h.params f.displayParams) _

end

/-! ### Runs -/

section
variable (bcd1 : BitVec 32 → BitVec 32) (daylight : Bool) (panel : Panel) (inp : ℕ → Frame)

abbrev frames (t : ℕ) : State := exec (frame bcd1) (initial daylight panel) inp t

lemma onlyLamp_frames (t : ℕ) : OnlyLamp (frames bcd1 daylight panel inp t) := by
  refine exec_inv_all ⟨fun b hb => ?_, fun b _ => ?_⟩ (fun s f h => h.frame f) t
  · have hs : (initial daylight panel).sdata = [] := rfl
    rw [hs] at hb
    exact absurd hb List.not_mem_nil
  · cases b <;> rfl

lemma flagged_frames (t : ℕ) (g : WarningFlag) :
    Flagged (frame bcd1 (frames bcd1 daylight panel inp t) (inp t)).flags g ↔
      ∃ u ≤ t, Outside (inp u).displayParams g := by
  have hlatch : Flagged (exec (frame bcd1) (initial daylight panel) inp (t + 1)).flags g ↔
      ∃ u < t + 1, Outside (inp u).displayParams g :=
    exec_latch (P := fun s : State => Flagged s.flags g)
      (Q := fun fr : Frame => Outside fr.displayParams g)
      (fun s fr => flagged_frame bcd1 s fr g) (not_flagged_initial daylight panel g) (t + 1)
  simpa only [exec_succ, Nat.lt_succ_iff] using hlatch

lemma blinks_iff (t : ℕ) : Blinks bcd1 (frames bcd1 daylight panel inp t) (inp t) ↔
    (∀ u ≤ t, ¬ Outside (inp u).displayParams .boostWarn) ∧
      (afrMinLoad ≤ (inp t).displayParams.load →
        ∀ u ≤ t, ¬ Outside (inp u).displayParams .afrWarn) := by
  have hlamp : OnlyLamp (frame bcd1 (frames bcd1 daylight panel inp t) (inp t)) :=
    (onlyLamp_frames bcd1 daylight panel inp t).frame (inp t)
  have hboost := hlamp.not_active (b := .boost) (by decide)
  have hafr := hlamp.not_active (b := .afr) (by decide)
  constructor
  · intro h
    have hb := mt h.boost hboost
    have ha := mt h.afr hafr
    rw [boostModulates_iff, flagged_frames] at hb
    rw [afrModulates_iff, flagged_frames] at ha
    exact ⟨fun u hu hout => hb ⟨u, hu, hout⟩, fun hload u hu hout => ha ⟨⟨u, hu, hout⟩, hload⟩⟩
  · rintro ⟨hb, ha⟩
    refine ⟨fun hmod => ?_, fun hmod => ?_⟩
    · rw [boostModulates_iff, flagged_frames] at hmod
      obtain ⟨u, hu, hout⟩ := hmod
      exact absurd hout (hb u hu)
    · rw [afrModulates_iff, flagged_frames] at hmod
      obtain ⟨⟨u, hu, hout⟩, hload⟩ := hmod
      exact absurd hout (ha hload u hu)

/-- **Every bar that modulates has a blinker exactly as long as none does**: no boost outside its
limits, and no load at which an AFR shows that has been outside. -/
theorem blinks_run_iff (n : ℕ) :
    (∀ t < n, Blinks bcd1 (frames bcd1 daylight panel inp t) (inp t)) ↔
      ∀ t < n, ¬ Outside (inp t).displayParams .boostWarn ∧
        (afrMinLoad ≤ (inp t).displayParams.load →
          ∀ u ≤ t, ¬ Outside (inp u).displayParams .afrWarn) := by
  constructor
  · intro h t ht
    obtain ⟨hb, ha⟩ := (blinks_iff bcd1 daylight panel inp t).mp (h t ht)
    exact ⟨hb t le_rfl, ha⟩
  · intro h t ht
    refine (blinks_iff bcd1 daylight panel inp t).mpr ⟨fun u hu => ?_, (h t ht).2⟩
    exact (h u (by omega)).1

lemma blinkBrightness_zero {d : BlinkerData} (hd : d.dutyCycle = 0) (day : Bool) :
    barBrightness true d day = 0 := by
  simp [barBrightness, blinkBrightness, hd]

/-- **A bar that modulates is dark.** -/
theorem dark_of_modulates (t : ℕ) :
    (BoostModulates (called bcd1 (frames bcd1 daylight panel inp t) (inp t) .boost) →
      (frames bcd1 daylight panel inp (t + 1)).panel.ledsBrightness .ledArray1 = 0) ∧
    (AfrModulates (called bcd1 (frames bcd1 daylight panel inp t) (inp t) .afr) →
      (frames bcd1 daylight panel inp (t + 1)).panel.ledsBrightness .ledArray2 = 0) := by
  have hlamp := onlyLamp_frames bcd1 daylight panel inp t
  constructor
  · intro hmod
    have hcalled : OnlyLamp (called bcd1 (frames bcd1 daylight panel inp t) (inp t) .boost) :=
      hlamp.called (inp t) .boost
    have hstill := hcalled.still .boost (by decide)
    rw [frames, exec_succ, frame_eq, ledsBrightness_afrUpdate_boost, called_afr,
      ledsBrightness_boostUpdate, decide_eq_true hmod, blinkBrightness_zero hstill]
  · intro hmod
    have hcalled : OnlyLamp (called bcd1 (frames bcd1 daylight panel inp t) (inp t) .afr) :=
      hlamp.called (inp t) .afr
    have hstill := hcalled.still .afr (by decide)
    rw [frames, exec_succ, frame_eq, ledsBrightness_afrUpdate,
      decide_eq_true hmod, blinkBrightness_zero hstill]

end

/-- Too much boost in the first frame. -/
def overBoost : ℕ → Frame := fun _ => ⟨⟨12, 15, 200, 200, 100, 50⟩, true⟩

theorem not_blinks_overBoost :
    ¬ Blinks id (frames id true ⟨0, 0, 0, fun _ => 0, [], []⟩ overBoost 0) (overBoost 0) := by
  rw [blinks_iff]
  intro h
  exact h.1 0 le_rfl (by decide +kernel)

end Blastit.Fw.Display
