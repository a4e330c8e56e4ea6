import Blastit.Fw.WarningFlags

/-!
The warning lamp over a run of `warning_update` calls.

The second branch of `warning_update` does not look at the flags, and `warn_set_en(false)`
clears nothing: a lamp that has been switched on is stopped by the very next call, with
its register still enabled. So the lamp follows the flags only while they are zero, and
for the one call that first sees them set.
-/

namespace Blastit.Fw.Display

open Blastit.Lib.Clocked

def Active (s : State) (b : Blinker) : Prop := b ∈ s.sdata ∧ (s.bdata b).done = 0

instance (s : State) (b : Blinker) : Decidable (Active s b) := inferInstanceAs (Decidable (_ ∧ _))

/-- The lamp is enabled and its blinker active exactly when a flag is set. -/
def LampFollows (s : State) : Prop :=
  (s.panel.WarnEn ↔ s.flags ≠ 0) ∧ (Active s .mil ↔ s.flags ≠ 0)

/-- What a call finds: the flags, and whether `blinker_update` has run since the last one. -/
structure LampInput where
  flags : BitVec 32
  swept : Bool

def lampStep (s : State) (i : LampInput) : State :=
  let s := if i.swept then blinkerUpdate s else s
  warningUpdate { s with flags := i.flags }

/-! ### The lamp between two calls -/

/-- What the branches of `warning_update` look at, and what they set. -/
structure Lamp (s : State) (done : BitVec 8) (member en : Prop) : Prop where
  done : (s.bdata .mil).done = done
  member : .mil ∈ s.sdata ↔ member
  en : s.panel.WarnEn ↔ en

/-- Before the first call: the blinker is not done, and in no list. -/
abbrev Cold (s : State) : Prop := Lamp s 0 False False

abbrev Off (s : State) : Prop := Lamp s 1 False False

abbrev On (s : State) : Prop := Lamp s 0 True True

section
variable {s : State} {d : BitVec 8} {member en : Prop}

lemma Lamp.blinkerUpdate (h : Lamp s d member en) (hd : member → d = 0) :
    Lamp (blinkerUpdate s) d member en where
  done := by rw [done_blinkerUpdate, h.done]
  member := by
    rw [mem_blinkerUpdate, h.member, h.done]
    exact and_iff_left_of_imp hd
  en := by rw [panel_blinkerUpdate, h.en]

/-- What a call finds differs from what the last one left in the flags only. -/
lemma Lamp.input (h : Lamp s d member en) (hd : member → d = 0) (i : LampInput) :
    Lamp { (if i.swept then Display.blinkerUpdate s else s) with flags := i.flags } d member en := by
  cases i.swept with
  | false => exact ⟨h.done, h.member, h.en⟩
  | true => exact ⟨(h.blinkerUpdate hd).done, (h.blinkerUpdate hd).member, (h.blinkerUpdate hd).en⟩

lemma lamp_warningShine : Lamp (warningShine s) d member en ↔ Lamp s d member en := by
  unfold warningShine
  split
  · exact ⟨fun h => ⟨h.done, h.member, h.en⟩, fun h => ⟨h.done, h.member, h.en⟩⟩
  · rfl

lemma Lamp.warningSwitch_running (h : Lamp s 0 member en) : Lamp (warningSwitch s) 1 member en := by
  have hd := h.done
  simp only [warningSwitch, hd, and_false, if_true, if_false, show (0 : BitVec 8) ≠ 1 by decide]
  refine ⟨?_, h.member, ?_⟩
  · simp [blinkerStop]
  · simp [blinkerStop, h.en]

lemma Lamp.warningSwitch_idle (h : Lamp s 1 member en) (hf : s.flags = 0) :
    warningSwitch s = s := by
  simp only [warningSwitch, h.done, hf, ne_eq, not_true_eq_false, false_and, if_false,
    show (1 : BitVec 8) ≠ 0 by decide]

lemma Lamp.warningSwitch_start (h : Off s) (hf : s.flags ≠ 0) : On (warningSwitch s) := by
  have hd := h.done
  have hm : Blinker.mil ∉ s.sdata := h.member.mp
  simp only [warningSwitch, hd, hf, ne_eq, not_false_eq_true, and_self, if_true, blinkerStart,
    slinkAdd, hm, if_false]
  refine ⟨?_, ?_, ?_⟩
  · simp
  · simp
  · simp

lemma Lamp.step_cold (h : Cold s) (i : LampInput) : Off (lampStep s i) :=
  lamp_warningShine.mpr (h.input False.elim i).warningSwitch_running

lemma Lamp.step_off (h : Off s) {i : LampInput} (hf : i.flags = 0) : Off (lampStep s i) := by
  have hin := h.input False.elim i
  refine lamp_warningShine.mpr ?_
  rw [hin.warningSwitch_idle hf]
  exact hin

lemma Lamp.step_start (h : Off s) {i : LampInput} (hf : i.flags ≠ 0) : On (lampStep s i) :=
  lamp_warningShine.mpr (Lamp.warningSwitch_start (h.input False.elim i) hf)

lemma Lamp.step_on (h : On s) (i : LampInput) : Lamp (lampStep s i) 1 True True :=
  lamp_warningShine.mpr (h.input (fun _ => rfl) i).warningSwitch_running

@[simp] lemma flags_lampStep (s : State) (i : LampInput) : (lampStep s i).flags = i.flags := by
  unfold lampStep
  rw [flags_warningUpdate]

lemma Lamp.follows_off (h : Off s) : LampFollows s ↔ s.flags = 0 := by
  simp [LampFollows, Active, h.en, h.member]

lemma Lamp.follows_on (h : On s) : LampFollows s ↔ s.flags ≠ 0 := by
  simp [LampFollows, Active, h.en, h.member, h.done]

/-- The register asks for a flag, the blinker for none. -/
lemma Lamp.not_follows (h : Lamp s 1 True True) : ¬ LampFollows s := by
  rintro ⟨hen, hact⟩
  have hrun : Active s .mil := hact.mpr (hen.mp (h.en.mpr trivial))
  exact absurd (h.done.symm.trans hrun.2) (by decide)

end

/-! ### Runs -/

section
variable (daylight : Bool) (panel : Panel) (inp : ℕ → LampInput)

lemma cold_initial : Cold (initial daylight panel) where
  done := rfl
  member := by
    have hs : (initial daylight panel).sdata = [] := rfl
    simp [hs]
  en := by
    have hp : (initial daylight panel).panel.warnPwmControl = panel.warnInit.warnPwmControl := rfl
    rw [Panel.WarnEn, hp]
    exact iff_false_intro panel.not_warnEn_warnInit

/-- The run of the calls after `warning_init`. -/
abbrev lampRun (n : ℕ) : State := exec lampStep (initial daylight panel) inp n

variable {inp} {n : ℕ}

lemma off_lampRun (h : ∀ t ≤ n, t ≠ 0 → (inp t).flags = 0) :
    Off (lampRun daylight panel inp (n + 1)) := by
  induction n with
  | zero => exact (cold_initial daylight panel).step_cold _
  | succ n ih =>
    exact (ih fun t ht => h t (by omega)).step_off (h (n + 1) le_rfl (by omega))

lemma on_lampRun (h : ∀ t ≤ n, (inp t).flags = 0) (hf : (inp (n + 1)).flags ≠ 0) :
    On (lampRun daylight panel inp (n + 2)) :=
  (off_lampRun daylight panel fun t ht _ => h t ht).step_start hf

/-- **The lamp follows the flags exactly as long as they are zero, and for the one call
that first sees them set, if that is not the first call of all.** -/
theorem lampFollows_iff (inp : ℕ → LampInput) (n : ℕ) :
    (∀ t < n, LampFollows (lampRun daylight panel inp (t + 1))) ↔
      ∀ t < n, (inp t).flags ≠ 0 → 0 < t ∧ t + 1 = n := by
  constructor
  · intro h t ht hft
    -- the first call that sees a flag decides
    obtain ⟨u, ⟨hut, hfu⟩, hmin⟩ : ∃ u, (u ≤ t ∧ (inp u).flags ≠ 0) ∧
        ∀ v < u, (inp v).flags = 0 := by
      have hex : ∃ u, (inp u).flags ≠ 0 := ⟨t, hft⟩
      refine ⟨Nat.find hex, ⟨Nat.find_min' hex hft, Nat.find_spec hex⟩, fun v hv => ?_⟩
      exact not_not.mp (Nat.find_min hex hv)
    have hflags : ∀ k, (lampRun daylight panel inp (k + 1)).flags = (inp k).flags := fun k =>
      flags_lampStep _ _
    cases u with
    | zero =>
      have hoff : Off (lampRun daylight panel inp 1) :=
        off_lampRun daylight panel fun v hv hv0 => absurd (Nat.le_zero.mp hv) hv0
      have := hoff.follows_off.mp (h 0 (by omega))
      exact absurd ((hflags 0).symm.trans this) hfu
    | succ u =>
      have hon := on_lampRun daylight panel (fun v hv => hmin v (by omega)) hfu
      have hlast : ¬ u + 2 < n := fun hn =>
        Lamp.not_follows (hon.step_on (inp (u + 2))) (h (u + 2) hn)
      omega
  · intro h t ht
    by_cases hz : ∀ u ≤ t, (inp u).flags = 0
    · refine (off_lampRun daylight panel fun u hu _ => hz u hu).follows_off.mpr ?_
      exact (flags_lampStep _ _).trans (hz t le_rfl)
    · push Not at hz
      obtain ⟨u, hu, hfu⟩ := hz
      obtain ⟨hpos, hlast⟩ := h u (by omega) hfu
      obtain rfl : u = t := by omega
      obtain ⟨k, rfl⟩ : ∃ k, u = k + 1 := ⟨u - 1, by omega⟩
      have hzero : ∀ v ≤ k, (inp v).flags = 0 := by
        intro v hv
        by_contra hfv
        have := h v (by omega) hfv
        omega
      exact (on_lampRun daylight panel hzero hfu).follows_on.mpr
        (fun h0 => hfu ((flags_lampStep _ _).symm.trans h0))

end

/-- A flag that is set from the second call on. -/
def warnFromSecond : ℕ → LampInput
  | 0 => ⟨0, false⟩
  | _ + 1 => ⟨1, false⟩

/-- The third call stops the blinker of a flag that is still set. -/
theorem not_lampFollows_warnFromSecond :
    ¬ LampFollows (lampRun true ⟨0, 0, 0, fun _ => 0, [], []⟩ warnFromSecond 3) :=
  Lamp.not_follows ((on_lampRun (n := 0) _ _ (fun t ht => by
    rw [Nat.le_zero.mp ht]; rfl) (by decide)).step_on _)

end Blastit.Fw.Display
