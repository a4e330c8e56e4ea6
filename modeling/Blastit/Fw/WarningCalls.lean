import Blastit.Fw.WarningFlags

/-!
Sequences of `warning_set` and `warning_clear` calls on a flag word.

A call of `warning_set` is right. One of `warning_clear` leaves the word alone: on a clear flag
it says that it has changed it, on a set one it does not.
-/

namespace Blastit.Fw.Display

open Blastit.Lib

inductive WarningCall
  | set (f : WarningFlag)
  | clear (f : WarningFlag)
  deriving DecidableEq, Repr

namespace WarningCall

def flag : WarningCall → WarningFlag
  | set f => f
  | clear f => f

/-- What the call returns, and the word it leaves. -/
def run (flags : BitVec 32) : WarningCall → Bool × BitVec 32
  | set f => warningSet flags f
  | clear f => warningClear flags f

end WarningCall

variable {flags : BitVec 32} {calls : List WarningCall} {c : WarningCall} {f g : WarningFlag}

def flagsAfter (flags : BitVec 32) (calls : List WarningCall) : BitVec 32 :=
  calls.foldl (fun w c => (c.run w).2) flags

def lastFor (f : WarningFlag) (calls : List WarningCall) : Option WarningCall :=
  calls.reverse.find? fun c => c.flag = f

/-- What the flag should be after the calls. -/
def Wanted (flags : BitVec 32) (calls : List WarningCall) (f : WarningFlag) : Prop :=
  match lastFor f calls with
  | some c => c = .set f
  | none => Flagged flags f

/-- What the two routines are to do on a sequence of calls. -/
structure KeepsFlags (flags : BitVec 32) (calls : List WarningCall) : Prop where
  final : ∀ f, Flagged (flagsAfter flags calls) f ↔ Wanted flags calls f
  others : ∀ before c after, calls = before ++ c :: after → ∀ g ≠ c.flag,
    (Flagged (c.run (flagsAfter flags before)).2 g ↔ Flagged (flagsAfter flags before) g)
  returned : ∀ before c after, calls = before ++ c :: after →
    ((c.run (flagsAfter flags before)).1 = true ↔
      (c.run (flagsAfter flags before)).2 ≠ flagsAfter flags before)

/-- No call of `warning_clear` is to have an effect: its flag is set when it is made, and the
last call that names the flag is one of `warning_set`. -/
structure ClearsNothing (flags : BitVec 32) (calls : List WarningCall) : Prop where
  raised : ∀ before f after, calls = before ++ .clear f :: after →
    Flagged flags f ∨ .set f ∈ before
  reset : ∀ f, .clear f ∈ calls → lastFor f calls = some (.set f)

/-! ### One call -/

lemma flagged_run (flags : BitVec 32) (c : WarningCall) (g : WarningFlag) :
    Flagged (c.run flags).2 g ↔ c = .set g ∨ Flagged flags g := by
  cases c with
  | set f => simp [WarningCall.run, flagged_warningSet, eq_comm]
  | clear f => simp [WarningCall.run, warningClear_flags]

lemma run_set_returned : ((WarningCall.set f).run flags).1 = true ↔ ¬ Flagged flags f := by
  rw [WarningCall.run, warningSet, ← and_val_eq_zero]
  split <;> simp_all

lemma run_set_changed : ((WarningCall.set f).run flags).2 ≠ flags ↔ ¬ Flagged flags f := by
  constructor
  · intro hne hset
    refine hne ?_
    rw [WarningCall.run, warningSet, if_neg (mt and_val_eq_zero.mp (not_not.mpr hset))]
  · intro hclear heq
    refine hclear ?_
    rw [← heq]
    exact (flagged_run flags (.set f) f).mpr (.inl rfl)

lemma run_clear_returned : ((WarningCall.clear f).run flags).1 = true ↔ ¬ Flagged flags f := by
  rw [WarningCall.run, warningClear, ← and_val_eq_zero]
  split <;> simp_all

lemma run_clear_flags : ((WarningCall.clear f).run flags).2 = flags := warningClear_flags flags f

/-! ### Sequences -/

lemma flagged_flagsAfter : Flagged (flagsAfter flags calls) g ↔ .set g ∈ calls ∨ Flagged flags g := by
  induction calls generalizing flags with
  | nil => simp [flagsAfter]
  | cons c calls ih =>
    rw [flagsAfter, List.foldl_cons, ← flagsAfter, ih, flagged_run, List.mem_cons, eq_comm]
    tauto

lemma mem_of_lastFor (h : lastFor f calls = some c) : c ∈ calls ∧ c.flag = f :=
  ⟨List.mem_reverse.mp (List.mem_of_find?_eq_some h), by simpa using List.find?_some h⟩

lemma flag_ne_of_lastFor (h : lastFor f calls = none) (hc : c ∈ calls) : c.flag ≠ f := by
  have hnone := List.find?_eq_none.mp h c (List.mem_reverse.mpr hc)
  simpa using hnone

lemma flagged_of_wanted (h : Wanted flags calls f) : Flagged (flagsAfter flags calls) f := by
  rw [flagged_flagsAfter]
  unfold Wanted at h
  split at h
  · next c hc =>
    subst h
    exact .inl (mem_of_lastFor hc).1
  · exact .inr h

/-- One that is set should be, unless the last word on it was `warning_clear`. -/
lemma wanted_of_flagged (hreset : ∀ f, .clear f ∈ calls → lastFor f calls = some (.set f))
    (h : Flagged (flagsAfter flags calls) f) : Wanted flags calls f := by
  rw [flagged_flagsAfter] at h
  unfold Wanted
  split
  · next c hc =>
    obtain ⟨hmem, hflag⟩ := mem_of_lastFor hc
    cases c with
    | set g =>
      cases hflag
      rfl
    | clear g =>
      cases hflag
      exact Option.some.inj (hc.symm.trans (hreset _ hmem))
  · next hnone => exact h.resolve_left fun hset => flag_ne_of_lastFor hnone hset rfl

/-- **The flags behave exactly if no call of `warning_clear` is to have an effect.** -/
theorem keepsFlags_iff (flags : BitVec 32) (calls : List WarningCall) :
    KeepsFlags flags calls ↔ ClearsNothing flags calls := by
  constructor
  · intro h
    have hraised : ∀ before f after, calls = before ++ .clear f :: after →
        Flagged flags f ∨ .set f ∈ before := by
      intro before f after he
      have hret := h.returned before (.clear f) after he
      rw [run_clear_returned, run_clear_flags] at hret
      have hset : Flagged (flagsAfter flags before) f := not_not.mp fun hn => hret.mp hn rfl
      exact (flagged_flagsAfter.mp hset).symm
    refine ⟨hraised, fun f hf => ?_⟩
    -- the flag is still set at the end, so the last call for it must have been `warning_set`
    obtain ⟨before, after, he⟩ := List.append_of_mem hf
    have hend : Flagged (flagsAfter flags calls) f := by
      refine flagged_flagsAfter.mpr ((hraised before f after he).symm.imp_left fun hset => ?_)
      rw [he]
      exact List.mem_append_left _ hset
    have hwanted := (h.final f).mp hend
    unfold Wanted at hwanted
    split at hwanted
    · next c hc => rw [hc, hwanted]
    · next hnone => exact absurd rfl (flag_ne_of_lastFor (f := f) hnone hf)
  · intro h
    refine ⟨fun f => ⟨wanted_of_flagged h.reset, flagged_of_wanted⟩, fun before c after _ g hg => ?_,
      fun before c after he => ?_⟩
    · rw [flagged_run]
      exact or_iff_right fun hc => hg (by rw [hc]; rfl)
    · cases c with
      | set f => rw [run_set_returned, run_set_changed]
      | clear f =>
        have hset : Flagged (flagsAfter flags before) f :=
          flagged_flagsAfter.mpr (h.raised before f after he).symm
        rw [run_clear_returned, run_clear_flags]
        simpa using hset

/-- A warning that is over. -/
theorem not_keepsFlags_cleared :
    flagsAfter 0 [.set .oilWarn, .clear .oilWarn] = WarningFlag.oilWarn.val ∧
      ((WarningCall.clear .oilWarn).run 0).1 = true ∧
      ¬ KeepsFlags 0 [.set .oilWarn, .clear .oilWarn] := by
  refine ⟨by decide, by decide, fun h => ?_⟩
  have hset : Flagged (flagsAfter 0 [.set .oilWarn, .clear .oilWarn]) .oilWarn :=
    flagged_flagsAfter.mpr (.inl (by simp))
  have hwanted := (h.final .oilWarn).mp hset
  cases hwanted

end Blastit.Fw.Display
