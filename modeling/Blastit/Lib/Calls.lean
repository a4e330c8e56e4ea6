import Mathlib.Data.List.Basic
import Mathlib.Tactic.Common

/-!
Calls that may fail: taking a successful sequence apart.
-/

namespace Blastit.Lib.Calls

universe u v

variable {ε σ : Type u} {α β : Type v} {ι : Type*}

lemma bind_eq_ok {x : Except ε α} {f : α → Except ε β} {b : β} :
    x >>= f = .ok b ↔ ∃ a, x = .ok a ∧ f a = .ok b := by
  cases x with
  | error e => simp [bind, Except.bind]
  | ok a => simp [bind, Except.bind]

/-- **The invariant rule for a loop that may fail**: what every successful round keeps holds
after a successful loop. -/
theorem foldlM_inv {P : σ → Prop} {step : σ → ι → Except ε σ}
    (h : ∀ s i s', P s → step s i = .ok s' → P s') {l : List ι} {s s' : σ} (hs : P s)
    (hl : l.foldlM step s = .ok s') : P s' := by
  induction l generalizing s with
  | nil =>
    cases hl
    exact hs
  | cons i l ih =>
    rw [List.foldlM_cons] at hl
    obtain ⟨s₁, hstep, hrest⟩ := bind_eq_ok.mp hl
    exact ih (h s i s₁ hs hstep) hrest

/-- **A loop commutes with a map of states** that its rounds commute with. -/
theorem foldlM_hom {ε σ : Type u} {step : σ → ι → Except ε σ} {f : σ → σ}
    (h : ∀ s i, step (f s) i = f <$> step s i) (l : List ι) (s : σ) :
    l.foldlM step (f s) = f <$> l.foldlM step s := by
  induction l generalizing s with
  | nil => rfl
  | cons i l ih =>
    rw [List.foldlM_cons, List.foldlM_cons, h]
    cases step s i with
    | error e => rfl
    | ok s' => exact ih s'

end Blastit.Lib.Calls
