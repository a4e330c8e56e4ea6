import Mathlib.Tactic.Common
import Mathlib.Order.Lattice

/-!
Flags with two causes: one that sets them and one that clears them.
-/

namespace Blastit.Lib.Flags

variable {set clear flag : ℕ → Prop} {t : ℕ}

/-- Before time `t` something was set and not cleared since. -/
def Since (set clear : ℕ → Prop) (t : ℕ) : Prop :=
  ∃ u < t, set u ∧ ∀ v, u < v → v < t → ¬ clear v

lemma not_since_zero : ¬ Since set clear 0 := fun ⟨_, h, _⟩ => Nat.not_lt_zero _ h

lemma since_succ : Since set clear (t + 1) ↔ set t ∨ (Since set clear t ∧ ¬ clear t) := by
  constructor
  · rintro ⟨u, hu, hset, hclear⟩
    rcases Nat.lt_succ_iff_lt_or_eq.mp hu with hlt | rfl
    · exact Or.inr ⟨⟨u, hlt, hset, fun v hv hvt => hclear v hv (by omega)⟩,
        hclear t hlt (by omega)⟩
    · exact Or.inl hset
  · rintro (hset | ⟨⟨u, hu, hset, hclear⟩, hnot⟩)
    · exact ⟨t, by omega, hset, fun v hv hvt => by omega⟩
    · refine ⟨u, by omega, hset, fun v hv hvt => ?_⟩
      rcases Nat.lt_succ_iff_lt_or_eq.mp hvt with hlt | rfl
      · exact hclear v hv hlt
      · exact hnot

/-- **The rule for a flag**: one that starts low, goes high where it is set and low where it is
cleared and not set, and stays otherwise, is high exactly since it was set. -/
theorem flag_iff (h0 : ¬ flag 0) (hstep : ∀ t, flag (t + 1) ↔ set t ∨ (flag t ∧ ¬ clear t))
    (t : ℕ) : flag t ↔ Since set clear t := by
  induction t with
  | zero => exact iff_of_false h0 not_since_zero
  | succ t ih => rw [hstep, since_succ, ih]

lemma since_congr {set' : ℕ → Prop} (h : ∀ u < t, set u ↔ set' u) :
    Since set clear t ↔ Since set' clear t :=
  exists_congr fun u => and_congr_right fun hu => and_congr_left' (h u hu)

/-- What a flag with the initial value `init` holds at time `t`. -/
def Holds (init : Prop) (set clear : ℕ → Prop) (t : ℕ) : Prop :=
  Since set clear t ∨ (init ∧ ∀ u < t, ¬ clear u)

/-- The rule for a flag that starts at `init`. -/
theorem holds_iff {init : Prop} (h0 : flag 0 ↔ init)
    (hstep : ∀ t, flag (t + 1) ↔ set t ∨ (flag t ∧ ¬ clear t)) (t : ℕ) :
    flag t ↔ Holds init set clear t := by
  induction t with
  | zero =>
    rw [h0, Holds, or_iff_right not_since_zero, and_iff_left fun u hu => absurd hu u.not_lt_zero]
  | succ t ih =>
    have hkept : (∀ u < t + 1, ¬ clear u) ↔ (∀ u < t, ¬ clear u) ∧ ¬ clear t :=
      Nat.forall_lt_succ_right
    rw [hstep, ih, Holds, Holds, since_succ, hkept]
    tauto

end Blastit.Lib.Flags
