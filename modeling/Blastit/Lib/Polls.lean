import Mathlib.Data.Nat.Init
import Mathlib.Tactic.Common

/-!
Polling: reading something again and again until it has a given property.

The reads are numbered. A loop that polls runs on fuel and returns the number of the read
that ended it; with enough fuel that is the first read with the property, if there is one.
-/

namespace Blastit.Lib.Polls

variable {p : ℕ → Bool} {k m fuel : ℕ}

/-- The first read from read `k` on with the property, in at most `fuel` reads. -/
def poll (p : ℕ → Bool) : ℕ → ℕ → Option ℕ
  | 0, _ => none
  | fuel + 1, k => if p k then some k else poll p fuel (k + 1)

structure First (p : ℕ → Bool) (k m : ℕ) : Prop where
  le : k ≤ m
  holds : p m = true
  before : ∀ i, k ≤ i → i < m → p i = false

lemma First.le_of_holds (h : First p k m) {i : ℕ} (hk : k ≤ i) (hi : p i = true) : m ≤ i := by
  by_contra hlt
  have := h.before i hk (by omega)
  rw [hi] at this
  cases this

/-- A loop that returns has found the first read with the property. -/
lemma first_of_poll (h : poll p fuel k = some m) : First p k m := by
  induction fuel generalizing k with
  | zero => cases h
  | succ fuel ih =>
    rw [poll] at h
    split_ifs at h with hp
    · cases h
      exact ⟨Nat.le_refl _, hp, fun i hk hi => absurd hi (by omega)⟩
    · obtain ⟨hle, hm, hbefore⟩ := ih h
      refine ⟨by omega, hm, fun i hk hi => ?_⟩
      rcases Nat.eq_or_lt_of_le hk with rfl | hlt
      · simpa using hp
      · exact hbefore i hlt hi

/-- Fuel for the reads up to the first with the property is enough. -/
lemma poll_of_first (h : First p k m) (hfuel : m < k + fuel) : poll p fuel k = some m := by
  induction fuel generalizing k with
  | zero =>
    have := h.le
    omega
  | succ fuel ih =>
    rw [poll]
    rcases Nat.eq_or_lt_of_le h.le with rfl | hlt
    · rw [if_pos h.holds]
    · have hk := h.before k (Nat.le_refl _) hlt
      rw [if_neg (by simp [hk])]
      exact ih ⟨hlt, h.holds, fun i hi => h.before i (by omega)⟩ (by omega)

lemma poll_mono {fuel' : ℕ} (h : poll p fuel k = some m) (hle : fuel ≤ fuel') :
    poll p fuel' k = some m := by
  induction fuel generalizing k fuel' with
  | zero => cases h
  | succ fuel ih =>
    obtain ⟨n, rfl⟩ := Nat.exists_eq_add_of_le hle
    rw [show fuel + 1 + n = fuel + n + 1 by omega, poll]
    rw [poll] at h
    split_ifs at h ⊢ with hp
    · exact h
    · exact ih h (Nat.le_add_right fuel n)

lemma exists_first (hk : k ≤ m) (hm : p m = true) : ∃ m, First p k m := by
  induction m using Nat.strong_induction_on with
  | _ m ih =>
    by_cases h : ∃ i, k ≤ i ∧ i < m ∧ p i = true
    · obtain ⟨i, hi, hlt, hp⟩ := h
      exact ih i hlt hi hp
    · push Not at h
      exact ⟨m, hk, hm, fun i hi hlt => by simpa using h i hi hlt⟩

/-- **Polling ends exactly when some read has the property.** -/
theorem exists_poll_iff : (∃ fuel m, poll p fuel k = some m) ↔ ∃ m, k ≤ m ∧ p m = true := by
  constructor
  · rintro ⟨fuel, m, h⟩
    have hf := first_of_poll h
    exact ⟨m, hf.le, hf.holds⟩
  · rintro ⟨m, hk, hm⟩
    obtain ⟨n, hn⟩ := exists_first hk hm
    exact ⟨n + 1, n, poll_of_first hn (by omega)⟩

end Blastit.Lib.Polls
