import Blastit.Fw.BlinkerDuty
import Blastit.Fw.Modulation
import Blastit.Rtl.Pwm

/-!
The warning lamp over a run of frames, from the readings to its pin.

A frame sweeps the blinkers before it comes to `warning_update`, so the lamp's blinker is
advanced once between the call that starts it and the call that stops it. That is half of what
its divisor asks for: the duty cycle stays at zero, and so does all the brightness that is ever
written.
-/

namespace Blastit.Fw.Display

open Blastit.Lib Blastit.Lib.Clocked Blastit.Fw.Panel

/-! ### Phases -/

/-- Where the lamp stands: not looked at yet, off, started, stopped and still listed, stopped
and swept. -/
inductive LampPhase
  | cold | off | on | stopped | spent
  deriving DecidableEq, Repr

namespace LampPhase

def done : LampPhase → BitVec 8
  | .cold | .on => 0
  | .off | .stopped | .spent => 1

def Listed (p : LampPhase) : Prop := p = .on ∨ p = .stopped

def Enabled (p : LampPhase) : Prop := p ≠ .cold ∧ p ≠ .off

instance (p : LampPhase) : Decidable p.Listed := inferInstanceAs (Decidable (_ ∨ _))

instance (p : LampPhase) : Decidable p.Enabled := inferInstanceAs (Decidable (_ ∧ _))

/-- What `blinker_update` makes of it. -/
def sweep : LampPhase → LampPhase
  | .stopped => .spent
  | p => p

/-- What `warning_update` makes of it, by whether it finds a flag. -/
def switch (seen : Bool) : LampPhase → LampPhase
  | .cold => .off
  | .off => if seen then .on else .off
  | .on | .stopped => .stopped
  | .spent => if seen then .on else .spent

/-- One frame. -/
def step (p : LampPhase) (seen : Bool) : LampPhase := p.sweep.switch seen

variable {seen : ℕ → Bool} {n u : ℕ}

lemma run_off (h : ∀ v, 1 ≤ v → v ≤ n → seen v = false) : exec step cold seen (n + 1) = off := by
  induction n with
  | zero => rfl
  | succ n ih =>
    rw [exec_succ, ih fun v h1 hv => h v h1 (by omega)]
    simp [step, sweep, switch, h (n + 1) (by omega) le_rfl]

/-- From the first flag on it is started and stopped by turns. -/
lemma run_turns (hu : 1 ≤ u) (hbefore : ∀ v, 1 ≤ v → v < u → seen v = false)
    (hseen : ∀ v, u ≤ v → seen v = true) (k : ℕ) :
    exec step cold seen (u + k + 1) = if Even k then on else stopped := by
  induction k with
  | zero =>
    obtain ⟨m, rfl⟩ : ∃ m, u = m + 1 := ⟨u - 1, by omega⟩
    rw [Nat.add_zero, exec_succ, run_off fun v h1 hv => hbefore v h1 (by omega)]
    simp [step, sweep, switch, hseen (m + 1) le_rfl]
  | succ k ih =>
    rw [← Nat.add_assoc, exec_succ, ih]
    by_cases hk : Even k
    · rw [if_pos hk, if_neg (by simpa [Nat.even_add_one] using hk)]
      rfl
    · rw [if_neg hk, if_pos (by simpa [Nat.even_add_one] using hk)]
      simp [step, sweep, switch, hseen (u + k + 1) (by omega)]

end LampPhase

/-! ### The lamp and its blinker -/

/-- The lamp stands at `p`, its duty cycle has not moved, and an enabled lamp has no brightness. -/
structure LampAt (s : State) (p : LampPhase) : Prop where
  lamp : Lamp s p.done p.Listed p.Enabled
  nodup : s.sdata.Nodup
  dvsr : (s.bdata .mil).dvsr = 2
  dutyCycle : (s.bdata .mil).dutyCycle = 0
  dark : p.Enabled → s.panel.warnPwmBrightness = 0

/-- The blinker of a lamp that is on has just been started. -/
def Fresh (s : State) (p : LampPhase) : Prop := p = .on → (s.bdata .mil).count = 0

/-- Two states that differ in nothing the lamp depends on. -/
structure SameLamp (s s' : State) : Prop where
  bdata : s'.bdata = s.bdata
  sdata : s'.sdata = s.sdata
  control : s'.panel.warnPwmControl = s.panel.warnPwmControl
  brightness : s'.panel.warnPwmBrightness = s.panel.warnPwmBrightness

section
variable {s s' : State} {p : LampPhase}

lemma SameLamp.lampAt (h : SameLamp s s') (hs : LampAt s p) : LampAt s' p where
  lamp := by
    refine ⟨?_, ?_, ?_⟩
    · rw [h.bdata]
      exact hs.lamp.done
    · rw [h.sdata]
      exact hs.lamp.member
    · rw [WarnEn, h.control]
      exact hs.lamp.en
  nodup := by
    rw [h.sdata]
    exact hs.nodup
  dvsr := by
    rw [h.bdata]
    exact hs.dvsr
  dutyCycle := by
    rw [h.bdata]
    exact hs.dutyCycle
  dark hp := by
    rw [h.brightness]
    exact hs.dark hp

lemma SameLamp.trans {s'' : State} (h : SameLamp s s') (h' : SameLamp s' s'') : SameLamp s s'' :=
  ⟨h'.bdata.trans h.bdata, h'.sdata.trans h.sdata, h'.control.trans h.control,
    h'.brightness.trans h.brightness⟩

lemma SameLamp.fresh (h : SameLamp s s') (hs : Fresh s p) : Fresh s' p := by
  rw [Fresh, h.bdata]
  exact hs

lemma sameLamp_update (bcd1 : BitVec 32 → BitVec 32) (daylight : Bool) {t : Task}
    (ht : t ≠ .pwmUpdate ∧ t ≠ .mil) (s : State) : SameLamp s (t.update bcd1 daylight s) := by
  have hreadout : ∀ r : ReadoutTask, SameLamp s (readoutUpdate bcd1 r s) := fun r =>
    ⟨rfl, rfl, readoutShow_keeps (f := Panel.warnPwmControl) (fun _ _ _ _ => rfl) bcd1 r _,
      readoutShow_keeps (f := Panel.warnPwmBrightness) (fun _ _ _ _ => rfl) bcd1 r _⟩
  cases t with
  | pwmUpdate => exact absurd rfl ht.1
  | mil => exact absurd rfl ht.2
  | daylight =>
    simp only [Task.update, daylightUpdate]
    split
    · exact ⟨rfl, rfl, rfl, rfl⟩
    · exact ⟨rfl, rfl, rfl, rfl⟩
  | afrReadout => exact hreadout afrReadoutTask
  | oilReadout => exact hreadout oilReadoutTask
  | coolantReadout => exact hreadout coolantReadoutTask
  | intakeReadout => exact hreadout intakeReadoutTask
  | boost =>
    refine ⟨?_, ?_, ?_, ?_⟩ <;> simp only [Task.update, boostUpdate, ledsSetBrightness]
    · exact (ledsFill_keeps (f := Panel.warnPwmControl) fun _ _ => rfl).trans
        (ledsFill_keeps fun _ _ => rfl)
    · exact (ledsFill_keeps (f := Panel.warnPwmBrightness) fun _ _ => rfl).trans
        (ledsFill_keeps fun _ _ => rfl)
  | afr =>
    refine ⟨?_, ?_, ?_, ?_⟩ <;> simp only [Task.update, afrUpdate, ledsSetBrightness]
    · refine foldl_keeps (f := Panel.warnPwmControl) ?_ s.panel _
      exact fun _ _ => rfl
    · refine foldl_keeps (f := Panel.warnPwmBrightness) ?_ s.panel _
      exact fun _ _ => rfl

/-! ### Sweeping -/

/-- One advance is not enough for the divisor. -/
lemma advance_fresh {d : BlinkerData} (hdvsr : d.dvsr = 2) (hduty : d.dutyCycle = 0)
    (hcount : d.count = 0) : d.advance.dvsr = 2 ∧ d.advance.dutyCycle = 0 := by
  simp [BlinkerData.advance, hdvsr, hduty, hcount]

lemma LampAt.blinkerUpdate (h : LampAt s p) (hfresh : Fresh s p) :
    LampAt (Display.blinkerUpdate s) p.sweep := by
  have hdata := bdata_blinkerUpdate (c := .mil) h.nodup
  have hmoved : ((Display.blinkerUpdate s).bdata .mil).dvsr = 2 ∧
      ((Display.blinkerUpdate s).bdata .mil).dutyCycle = 0 := by
    rw [hdata, call_update]
    split
    · next hrun =>
      refine advance_fresh h.dvsr h.dutyCycle (hfresh ?_)
      have hlisted := h.lamp.member.mp (of_decide_eq_true hrun.1)
      have hdone := h.lamp.done.symm.trans hrun.2
      revert hlisted hdone
      cases p <;> decide
    · exact ⟨h.dvsr, h.dutyCycle⟩
  refine ⟨⟨?_, ?_, ?_⟩, nodup_blinkerUpdate h.nodup, hmoved.1, hmoved.2, fun hp => ?_⟩
  · rw [done_blinkerUpdate, h.lamp.done]
    cases p <;> rfl
  · rw [mem_blinkerUpdate, h.lamp.member, h.lamp.done]
    cases p <;> decide
  · rw [panel_blinkerUpdate, h.lamp.en]
    cases p <;> decide
  · rw [panel_blinkerUpdate]
    refine h.dark ?_
    revert hp
    cases p <;> decide

/-! ### Switching -/

lemma warningUpdate_running (h : (s.bdata .mil).done = 0) : warningUpdate s =
    { blinkerStop .mil s with panel := s.panel.warnSetEn false } := by
  simp [warningUpdate, warningSwitch, warningShine, h, blinkerStop]

lemma warningUpdate_idle (h : (s.bdata .mil).done = 1) (hf : s.flags = 0) :
    warningUpdate s = s := by
  simp [warningUpdate, warningSwitch, warningShine, h, hf]

lemma warningUpdate_start (h : (s.bdata .mil).done = 1) (hmem : .mil ∉ s.sdata) (hf : s.flags ≠ 0) :
    warningUpdate s = { blinkerStart .mil s with
      panel := (s.panel.warnSetEn true).warnSetBrightness
        (blinkBrightness ((blinkerStart .mil s).bdata .mil) s.isDaylight) } := by
  have hstart : blinkerStart .mil s = { s with
      sdata := s.sdata ++ [.mil]
      bdata := Function.update s.bdata .mil
        { s.bdata .mil with done := 0, count := 0, sign := 0 } } := by
    simp [blinkerStart, slinkAdd, hmem]
  have hswitch : warningSwitch s =
      { blinkerStart .mil s with panel := (blinkerStart .mil s).panel.warnSetEn true } :=
    if_pos ⟨hf, h⟩
  rw [warningUpdate, hswitch, hstart]
  simp [warningShine]

lemma LampAt.stopped (h : LampAt s p) (hp : p.done = 0) {q : LampPhase} (hdone : q.done = 1)
    (hlisted : q.Listed ↔ p.Listed) (hen : q.Enabled ↔ p.Enabled) :
    LampAt (warningUpdate s) q := by
  rw [warningUpdate_running (h.lamp.done.trans hp)]
  refine ⟨⟨?_, ?_, ?_⟩, h.nodup, ?_, ?_, fun hq => h.dark (hen.mp hq)⟩
  · simp [blinkerStop, hdone]
  · exact h.lamp.member.trans hlisted.symm
  · simp [h.lamp.en, hen]
  · simp [blinkerStop, h.dvsr]
  · simp [blinkerStop, h.dutyCycle]

lemma LampAt.start (h : LampAt s p) (hp : p.done = 1) (hlisted : ¬ p.Listed) (hf : s.flags ≠ 0) :
    LampAt (warningUpdate s) .on ∧ Fresh (warningUpdate s) .on := by
  have hdone := h.lamp.done.trans hp
  have hmem : .mil ∉ s.sdata := fun hm => hlisted (h.lamp.member.mp hm)
  have hdata : (blinkerStart .mil s).bdata .mil = ⟨0, 2, 0, 0, 0⟩ := by
    rw [bdata_blinkerStart, if_pos rfl, decide_eq_true hmem]
    rcases hd : s.bdata .mil with ⟨done, dvsr, dutyCycle, count, sign⟩
    have hdvsr : dvsr = 2 := by simpa [hd] using h.dvsr
    have hduty : dutyCycle = 0 := by simpa [hd] using h.dutyCycle
    simp [BlinkerData.call, hdvsr, hduty]
  rw [warningUpdate_start hdone hmem hf]
  refine ⟨⟨⟨?_, ?_, ?_⟩, nodup_blinkerStart h.nodup, ?_, ?_, fun _ => ?_⟩, fun _ => ?_⟩
  · rw [hdata]
    rfl
  · simp [blinkerStart, slinkAdd, hmem, LampPhase.Listed]
  · simp [LampPhase.Enabled, warnSetBrightness, WarnEn]
    exact (warnEn_warnSetEn true s.panel).mpr (Or.inl rfl)
  · rw [hdata]
  · rw [hdata]
  · rw [hdata]
    simp [warnSetBrightness, blinkBrightness]
  · rw [hdata]

/-- **`warning_update` switches the lamp by its phase.** -/
lemma LampAt.warningUpdate (h : LampAt s p) (hp : p ≠ .stopped) :
    LampAt (Display.warningUpdate s) (p.switch (decide (s.flags ≠ 0))) ∧
      Fresh (Display.warningUpdate s) (p.switch (decide (s.flags ≠ 0))) := by
  have hrests : ∀ q : LampPhase, q ≠ .on → Fresh (Display.warningUpdate s) q :=
    fun q hq hon => absurd hon hq
  cases p with
  | stopped => exact absurd rfl hp
  | cold =>
    have hoff : LampAt (Display.warningUpdate s) .off := h.stopped rfl rfl (by decide) (by decide)
    exact ⟨hoff, hrests .off (by decide)⟩
  | on =>
    have hstopped : LampAt (Display.warningUpdate s) .stopped :=
      h.stopped rfl rfl (by decide) (by decide)
    exact ⟨hstopped, hrests .stopped (by decide)⟩
  | off | spent =>
    by_cases hf : s.flags = 0
    · rw [decide_eq_false (not_not.mpr hf)]
      refine ⟨?_, hrests _ (by decide)⟩
      rw [warningUpdate_idle h.lamp.done hf]
      exact h
    · rw [decide_eq_true hf]
      exact h.start rfl (by decide) hf

end

/-! ### Frames -/

lemma takeWhile_mil : tasks.takeWhile (· ≠ .mil) =
    [.daylight, .pwmUpdate, .afrReadout, .oilReadout, .coolantReadout, .intakeReadout] := by
  decide

lemma takeWhile_boost : tasks.takeWhile (· ≠ .boost) = tasks.takeWhile (· ≠ .mil) ++ [.mil] := by
  decide

section
variable {bcd1 : BitVec 32 → BitVec 32} {s : State} {p : LampPhase} (f : Frame)

lemma called_boost : called bcd1 s f .boost = warningUpdate (called bcd1 s f .mil) := by
  rw [called, takeWhile_boost, List.foldl_append]
  rfl

lemma sameLamp_foldl {l : List Task} (hl : ∀ t ∈ l, t ≠ .pwmUpdate ∧ t ≠ .mil) (s : State) :
    SameLamp s (l.foldl (fun s t => t.update bcd1 f.daylight s) s) := by
  induction l generalizing s with
  | nil => exact ⟨rfl, rfl, rfl, rfl⟩
  | cons t l ih =>
    have hhead := sameLamp_update bcd1 f.daylight (hl t List.mem_cons_self) s
    exact hhead.trans (ih (fun t ht => hl t (List.mem_cons_of_mem _ ht)) _)

/-- **A frame is one step of the lamp**, by whether its `warning_update` finds a flag. -/
lemma LampAt.frame (h : LampAt s p) (hfresh : Fresh s p) :
    LampAt (Display.frame bcd1 s f) (p.step (decide ((called bcd1 s f .mil).flags ≠ 0))) ∧
      Fresh (Display.frame bcd1 s f) (p.step (decide ((called bcd1 s f .mil).flags ≠ 0))) := by
  set s₁ : State := { s with displayParams := f.displayParams } with hs₁
  have hday : SameLamp s (daylightUpdate f.daylight s₁) := by
    have hparams : SameLamp s s₁ := ⟨rfl, rfl, rfl, rfl⟩
    exact hparams.trans (sameLamp_update bcd1 f.daylight (t := .daylight) (by decide) _)
  have hcalled : called bcd1 s f .mil =
      [Task.afrReadout, .oilReadout, .coolantReadout, .intakeReadout].foldl
        (fun s t => t.update bcd1 f.daylight s)
        (Display.blinkerUpdate (daylightUpdate f.daylight s₁)) := by
    rw [called, takeWhile_mil]
    rfl
  have hswept : LampAt (called bcd1 s f .mil) p.sweep := by
    rw [hcalled]
    exact (sameLamp_foldl f (by decide) _).lampAt
      ((hday.lampAt h).blinkerUpdate (hday.fresh hfresh))
  have hswitched := hswept.warningUpdate (by cases p <;> decide)
  have hrest : SameLamp (Display.warningUpdate (called bcd1 s f .mil))
      (Display.frame bcd1 s f) := by
    rw [frame_eq, called_afr, called_boost]
    exact (sameLamp_update bcd1 f.daylight (t := .boost) (by decide) _).trans
      (sameLamp_update bcd1 f.daylight (t := .afr) (by decide) _)
  exact ⟨hrest.lampAt hswitched.1, hrest.fresh hswitched.2⟩

/-! ### The flags a frame finds -/

/-- A word of flags in which none is set is zero. -/
def Known (flags : BitVec 32) : Prop := (∀ g, ¬ Flagged flags g) → flags = 0

lemma known_warningSet {flags : BitVec 32} (h : Known flags) (g : WarningFlag) :
    Known (warningSet flags g).2 := by
  unfold warningSet
  split
  · next hclear =>
    intro hnone
    have hset := (flagged_warningSet flags g g).mpr (Or.inl rfl)
    rw [warningSet, if_pos hclear] at hset
    exact absurd hset (hnone g)
  · exact h

lemma known_update (daylight : Bool) (h : Known s.flags) (t : Task) :
    Known (t.update bcd1 daylight s).flags := by
  have hreadout : ∀ r : ReadoutTask, Known (readoutUpdate bcd1 r s).flags := by
    intro r
    simp only [readoutUpdate, warningClear_flags]
    split
    · exact known_warningSet h _
    · exact h
  cases t with
  | daylight => simpa [Task.update] using h
  | pwmUpdate => simpa [Task.update] using h
  | afrReadout => exact hreadout afrReadoutTask
  | oilReadout => exact hreadout oilReadoutTask
  | coolantReadout => exact hreadout coolantReadoutTask
  | intakeReadout => exact hreadout intakeReadoutTask
  | mil => simpa [Task.update] using h
  | boost =>
    simp only [Task.update, boostUpdate, boostFlags, warningClear_flags, ite_self]
    split
    · exact known_warningSet h _
    · exact h
  | afr => simpa [Task.update] using h

/-- `warning_update` sees all flags but the frame's own boost. -/
lemma flagged_called (g : WarningFlag) : Flagged (called bcd1 s f .mil).flags g ↔
    (g ≠ .boostWarn ∧ Outside f.displayParams g) ∨ Flagged s.flags g := by
  simp only [called, takeWhile_mil, List.foldl_cons, List.foldl_nil, Task.update,
    flagged_readoutUpdate _ _ watches_intake, flagged_readoutUpdate _ _ watches_coolant,
    flagged_readoutUpdate _ _ watches_oil, flagged_readoutUpdate _ _ watches_afr,
    flags_blinkerUpdate, flags_daylightUpdate, displayParams_readoutUpdate,
    displayParams_blinkerUpdate, displayParams_daylightUpdate]
  cases g <;> simp

lemma called_flags_ne_zero (h : Known s.flags) : (called bcd1 s f .mil).flags ≠ 0 ↔
    ∃ g, (g ≠ .boostWarn ∧ Outside f.displayParams g) ∨ Flagged s.flags g := by
  have hknown : Known (called bcd1 s f .mil).flags :=
    foldl_inv (I := fun s : State => Known s.flags)
      (fun _ t hs => known_update f.daylight hs t) (by exact h) _
  constructor
  · intro hne
    obtain ⟨g, hg⟩ := not_forall.mp (mt hknown hne)
    exact ⟨g, (flagged_called f g).mp (not_not.mp hg)⟩
  · rintro ⟨g, hg⟩ hzero
    refine not_flagged_zero g ?_
    rw [← hzero]
    exact (flagged_called f g).mpr hg

end

/-! ### Runs -/

/-- By frame `t` a reading has been outside its limits; a boost counts from the next frame on. -/
def Noticed (inp : ℕ → Frame) (t : ℕ) : Prop :=
  ∃ g, (g ≠ .boostWarn ∧ Outside (inp t).displayParams g) ∨
    ∃ u < t, Outside (inp u).displayParams g

/-- `t` is the first frame after the very first that finds one. -/
structure FirstNoticed (inp : ℕ → Frame) (t : ℕ) : Prop where
  pos : 1 ≤ t
  noticed : Noticed inp t
  first : ∀ v, 1 ≤ v → v < t → ¬ Noticed inp v

/-- The lamp after frame `n`: enabled for good by the first frame that finds a reading outside its
limits, blinking in every second frame from there on, and never lit. -/
structure LampRuns (inp : ℕ → Frame) (n : ℕ) (s : State) : Prop where
  enabled : s.panel.WarnEn ↔ ∃ u, FirstNoticed inp u ∧ u ≤ n
  blinking : Active s .mil ↔ ∃ u, FirstNoticed inp u ∧ u ≤ n ∧ Even (n - u)
  unlit : ∀ c : Rtl.Pwm.State 8, Rtl.Pwm.out c s.panel.warnPwmBrightness
    (s.panel.warnPwmControl.extractLsb' 0 1) = 0

lemma Noticed.mono {inp : ℕ → Frame} {u v : ℕ} (h : Noticed inp u) (huv : u ≤ v) :
    Noticed inp v := by
  rcases Nat.eq_or_lt_of_le huv with rfl | hlt
  · exact h
  · obtain ⟨g, ⟨-, hout⟩ | ⟨w, hw, hout⟩⟩ := h
    · exact ⟨g, Or.inr ⟨u, hlt, hout⟩⟩
    · exact ⟨g, Or.inr ⟨w, hw.trans hlt, hout⟩⟩

lemma LampAt.unlit {s : State} {p : LampPhase} (h : LampAt s p) (c : Rtl.Pwm.State 8) :
    Rtl.Pwm.out c s.panel.warnPwmBrightness (s.panel.warnPwmControl.extractLsb' 0 1) = 0 := by
  unfold Rtl.Pwm.out
  split
  · next hpass =>
    have hne := (Rtl.Pwm.passes_iff.mp hpass).1
    have hoff : ¬ s.panel.WarnEn := fun hen => hne (h.dark (h.lamp.en.mp hen))
    rw [WarnEn, Mask.has_iff _ (by decide), Bool.not_eq_true] at hoff
    ext k hk
    simpa [Nat.lt_one_iff.mp hk] using hoff
  · rfl

section
variable (bcd1 : BitVec 32 → BitVec 32) (daylight : Bool) (panel : Panel) (inp : ℕ → Frame)

/-- What `warning_update` finds in frame `t`. -/
def found (t : ℕ) : Bool :=
  decide ((called bcd1 (frames bcd1 daylight panel inp t) (inp t) .mil).flags ≠ 0)

lemma found_iff (t : ℕ) : found bcd1 daylight panel inp t = true ↔ Noticed inp t := by
  have hknown : Known (frames bcd1 daylight panel inp t).flags :=
    exec_inv_all (I := fun s : State => Known s.flags) (fun _ => rfl)
      (fun s f h => foldl_inv (I := fun s : State => Known s.flags)
        (fun _ t hs => known_update f.daylight hs t) (by exact h) _) t
  have hlatch : ∀ g, Flagged (frames bcd1 daylight panel inp t).flags g ↔
      ∃ u < t, Outside (inp u).displayParams g := fun g =>
    exec_latch (P := fun s : State => Flagged s.flags g)
      (Q := fun fr : Frame => Outside fr.displayParams g)
      (fun s fr => flagged_frame bcd1 s fr g) (not_flagged_initial daylight panel g) t
  rw [found, decide_eq_true_iff, called_flags_ne_zero (inp t) hknown]
  simp only [hlatch]
  rfl

/-- **The frames run the lamp's phases.** -/
lemma lampAt_frames (n : ℕ) :
    LampAt (frames bcd1 daylight panel inp n)
        (exec LampPhase.step .cold (found bcd1 daylight panel inp) n) ∧
      Fresh (frames bcd1 daylight panel inp n)
        (exec LampPhase.step .cold (found bcd1 daylight panel inp) n) := by
  induction n with
  | zero =>
    have hcold := cold_initial daylight panel
    refine ⟨⟨?_, List.nodup_nil, rfl, rfl, fun h => absurd rfl h.1⟩, fun h => by cases h⟩
    exact ⟨hcold.done, hcold.member.trans (by show False ↔ LampPhase.cold.Listed; decide),
      hcold.en.trans (by show False ↔ LampPhase.cold.Enabled; decide)⟩
  | succ n ih => exact ih.1.frame (inp n) ih.2

/-- **The warning lamp never lights**: readings outside their limits enable it and start its
blinker, in every second frame, and its pin stays low. -/
theorem lampRuns_frames (n : ℕ) : LampRuns inp n (frames bcd1 daylight panel inp (n + 1)) := by
  have h := (lampAt_frames bcd1 daylight panel inp (n + 1)).1
  by_cases hex : ∃ u, 1 ≤ u ∧ u ≤ n ∧ Noticed inp u
  · obtain ⟨u, hfirst, hun⟩ : ∃ u, FirstNoticed inp u ∧ u ≤ n := by
      classical
      obtain ⟨h1, hun, hnot⟩ := Nat.find_spec hex
      refine ⟨Nat.find hex, ⟨h1, hnot, fun v hv hlt hn => ?_⟩, hun⟩
      exact Nat.find_min hex hlt ⟨hv, by omega, hn⟩
    have hunique : ∀ v, FirstNoticed inp v → v = u := by
      intro v hv
      rcases lt_trichotomy v u with hlt | heq | hgt
      · exact absurd hv.noticed (hfirst.first v hv.pos hlt)
      · exact heq
      · exact absurd hfirst.noticed (hv.first u hfirst.pos hgt)
    have hphase : exec LampPhase.step .cold (found bcd1 daylight panel inp) (n + 1) =
        if Even (n - u) then .on else .stopped := by
      have hturns : exec LampPhase.step .cold (found bcd1 daylight panel inp) (u + (n - u) + 1) =
          if Even (n - u) then .on else .stopped := by
        refine LampPhase.run_turns hfirst.pos (fun v h1 hv => ?_) (fun v hv => ?_) (n - u)
        · exact Bool.eq_false_iff.mpr (mt (found_iff ..).mp (hfirst.first v h1 hv))
        · exact (found_iff ..).mpr (hfirst.noticed.mono hv)
      rwa [Nat.add_sub_cancel' hun] at hturns
    rw [hphase] at h
    refine ⟨?_, ?_, h.unlit⟩
    · refine h.lamp.en.trans (iff_of_true ?_ ⟨u, hfirst, hun⟩)
      split <;> decide
    · have hact : Active (frames bcd1 daylight panel inp (n + 1)) .mil ↔ Even (n - u) := by
        rw [Active, h.lamp.member, h.lamp.done]
        by_cases he : Even (n - u)
        · simp only [he, iff_true]
          decide
        · simp only [he, iff_false]
          decide
      rw [hact]
      constructor
      · exact fun he => ⟨u, hfirst, hun, he⟩
      · rintro ⟨v, hv, -, he⟩
        rwa [hunique v hv] at he
  · have hphase : exec LampPhase.step .cold (found bcd1 daylight panel inp) (n + 1) = .off := by
      refine LampPhase.run_off fun v h1 hv => Bool.eq_false_iff.mpr fun hf => ?_
      exact hex ⟨v, h1, hv, (found_iff ..).mp hf⟩
    rw [hphase] at h
    have hnone : ∀ u, FirstNoticed inp u → ¬ u ≤ n :=
      fun u hu hun => hex ⟨u, hu.pos, hun, hu.noticed⟩
    refine ⟨?_, ?_, h.unlit⟩
    · refine h.lamp.en.trans (iff_of_false (by decide) ?_)
      rintro ⟨u, hu, hun⟩
      exact hnone u hu hun
    · rw [Active, h.lamp.member, h.lamp.done]
      refine iff_of_false (by decide) ?_
      rintro ⟨u, hu, hun, -⟩
      exact hnone u hu hun

end

end Blastit.Fw.Display
