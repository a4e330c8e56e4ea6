import Mathlib.Data.Nat.Count
import Mathlib.Data.Set.Card

/-!
The maximal runs of a waveform: where it is high without a break, as long as it is.

A run is settled by the clock it begins on, so there are as many runs as clocks that are high
after a low one.
-/

namespace Blastit.Lib.Runs

variable {inp : ℕ → Bool} {n i j j' : ℕ}

/-- On the clocks before `n` the waveform is high from `i` up to `j`, and neither just before nor
just after. -/
structure MaximalRun (inp : ℕ → Bool) (n i j : ℕ) : Prop where
  lt : i < j
  le : j ≤ n
  high : ∀ k, i ≤ k → k < j → inp k = true
  left : i = 0 ∨ inp (i - 1) = false
  right : j = n ∨ inp j = false

def Begins (inp : ℕ → Bool) (i : ℕ) : Prop := inp i = true ∧ (i = 0 ∨ inp (i - 1) = false)

instance (inp : ℕ → Bool) : DecidablePred (Begins inp) := fun _ =>
  inferInstanceAs (Decidable (_ ∧ _))

lemma MaximalRun.end_le (h : MaximalRun inp n i j) (h' : MaximalRun inp n i j') : j ≤ j' := by
  by_contra hlt
  rcases h'.right with hn | hlow
  · have := h.le
    omega
  · have hhigh := h.high j' h'.lt.le (by omega)
    rw [hlow] at hhigh
    cases hhigh

lemma MaximalRun.end_eq (h : MaximalRun inp n i j) (h' : MaximalRun inp n i j') : j = j' :=
  le_antisymm (h.end_le h') (h'.end_le h)

/-- What begins goes on to the first low clock, or to the last clock of all. -/
lemma exists_maximalRun (hi : i < n) (hb : Begins inp i) : ∃ j, MaximalRun inp n i j := by
  have hex : ∃ j, i < j ∧ (j = n ∨ inp j = false) := ⟨n, hi, Or.inl rfl⟩
  obtain ⟨hlt, hend⟩ := Nat.find_spec hex
  have hle : Nat.find hex ≤ n := Nat.find_min' hex ⟨hi, Or.inl rfl⟩
  refine ⟨Nat.find hex, hlt, hle, fun k hik hk => ?_, hb.2, hend⟩
  rcases Nat.eq_or_lt_of_le hik with rfl | hik'
  · exact hb.1
  · have hno := Nat.find_min hex hk
    by_contra hlow
    exact hno ⟨hik', Or.inr (by simpa using hlow)⟩

/-- **As many runs as beginnings.** -/
theorem ncard_maximalRun (inp : ℕ → Bool) (n : ℕ) :
    {p : ℕ × ℕ | MaximalRun inp n p.1 p.2}.ncard = Nat.count (Begins inp) n := by
  have hinj : Set.InjOn Prod.fst {p : ℕ × ℕ | MaximalRun inp n p.1 p.2} := by
    rintro ⟨i, j⟩ h ⟨i', j'⟩ h' (rfl : i = i')
    exact congrArg (Prod.mk i) (MaximalRun.end_eq h h')
  have himage : Prod.fst '' {p : ℕ × ℕ | MaximalRun inp n p.1 p.2} =
      ((Finset.range n).filter (Begins inp) : Set ℕ) := by
    ext i
    rw [Finset.mem_coe, Finset.mem_filter, Finset.mem_range]
    constructor
    · rintro ⟨⟨i, j⟩, h, rfl⟩
      exact ⟨h.lt.trans_le h.le, h.high i le_rfl h.lt, h.left⟩
    · rintro ⟨hi, hb⟩
      obtain ⟨j, hj⟩ := exists_maximalRun hi hb
      exact ⟨(i, j), hj, rfl⟩
  rw [Nat.count_eq_card_filter_range, ← Set.ncard_coe_finset, ← himage, hinj.ncard_image]

end Blastit.Lib.Runs
