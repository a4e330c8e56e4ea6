import Mathlib.Data.List.Basic
import Mathlib.Tactic.Common

/-!
Synchronous machines: a step function iterated on a stream of inputs, and the lists of
things observed along the way.

A machine is its step function. `exec` gives the registers at every clock, `collect` what
a stream of outputs has emitted before a clock. The induction over a run is done once, in
the invariant rules and in the rule for latches, so that a proof about a machine only ever
looks at one step.
-/

namespace Blastit.Lib.Clocked

variable {σ ι α : Type*}

/-- The registers at each clock, from `s₀` and on the inputs `inp`. -/
def exec (step : σ → ι → σ) (s₀ : σ) (inp : ℕ → ι) : ℕ → σ
  | 0 => s₀
  | t + 1 => step (exec step s₀ inp t) (inp t)

variable (step : σ → ι → σ) (s₀ : σ) (inp : ℕ → ι)

@[simp] lemma exec_zero : exec step s₀ inp 0 = s₀ := rfl

lemma exec_succ (t : ℕ) : exec step s₀ inp (t + 1) = step (exec step s₀ inp t) (inp t) := rfl

variable {step s₀ inp}

/-- **The invariant rule**: what holds at the start and is kept by every admitted step
holds at every clock. -/
theorem exec_inv {I : σ → Prop} {ok : σ → ι → Prop} (h0 : I s₀)
    (hstep : ∀ s i, I s → ok s i → I (step s i)) :
    ∀ t, (∀ u < t, ok (exec step s₀ inp u) (inp u)) → I (exec step s₀ inp t)
  | 0, _ => h0
  | t + 1, hok =>
    hstep _ _ (exec_inv h0 hstep t fun u hu => hok u (by omega)) (hok t (by omega))

lemma exec_inv_all {I : σ → Prop} (h0 : I s₀) (hstep : ∀ s i, I s → I (step s i)) (t : ℕ) :
    I (exec step s₀ inp t) := by
  induction t with
  | zero => exact h0
  | succ t ih => exact hstep _ _ ih

/-- **The rule for a measure**: where every admitted step outside a set gets closer to it, and
none inside leaves it, a run ends up in it for good. -/
theorem exec_settles {G : σ → Prop} {ok : ι → Prop} (μ : σ → ℕ)
    (hkeep : ∀ s i, G s → ok i → G (step s i))
    (hdown : ∀ s i, ¬ G s → ok i → G (step s i) ∨ μ (step s i) < μ s)
    (hok : ∀ t, ok (inp t)) : ∃ n, ∀ m, n ≤ m → G (exec step s₀ inp m) := by
  have hreach : ∃ n, G (exec step s₀ inp n) := by
    by_contra hnever
    push Not at hnever
    have hsum : ∀ t, μ (exec step s₀ inp t) + t ≤ μ s₀ := by
      intro t
      induction t with
      | zero => exact Nat.le_refl _
      | succ t ih =>
        have hlt := (hdown _ _ (hnever t) (hok t)).resolve_left (hnever (t + 1))
        rw [exec_succ]
        omega
    have := hsum (μ s₀ + 1)
    omega
  obtain ⟨n, hn⟩ := hreach
  refine ⟨n, fun m hm => ?_⟩
  obtain ⟨k, rfl⟩ := Nat.exists_eq_add_of_le hm
  clear hm
  induction k with
  | zero => exact hn
  | succ k ih => exact hkeep _ _ ih (hok (n + k))

lemma exec_add (t u : ℕ) :
    exec step s₀ inp (t + u) = exec step (exec step s₀ inp t) (fun k => inp (t + k)) u := by
  induction u with
  | zero => rfl
  | succ u ih => rw [← Nat.add_assoc, exec_succ, exec_succ, ih]

lemma exec_congr {inp' : ℕ → ι} {t : ℕ} (h : ∀ u < t, inp u = inp' u) :
    exec step s₀ inp t = exec step s₀ inp' t := by
  induction t with
  | zero => rfl
  | succ t ih => rw [exec_succ, exec_succ, ih fun u hu => h u (by omega), h t (by omega)]

/-- **A part of a machine** that takes steps of its own, on what it sees of the rest, is a
machine by itself. -/
lemma exec_part {τ κ : Type*} {f : σ → τ} {step' : τ → κ → τ} {seen : ℕ → κ}
    (h : ∀ t, f (exec step s₀ inp (t + 1)) = step' (f (exec step s₀ inp t)) (seen t)) (t : ℕ) :
    f (exec step s₀ inp t) = exec step' (f s₀) seen t := by
  induction t with
  | zero => rfl
  | succ t ih => rw [h, ih, exec_succ]

lemma foldl_keeps {f : σ → α} (h : ∀ s i, f (step s i) = f s) (s : σ) (l : List ι) :
    f (l.foldl step s) = f s := by
  induction l generalizing s with
  | nil => rfl
  | cons i l ih => rw [List.foldl_cons, ih, h]

/-- What the steps of a fold append stands in their order, as far as the steps keep what it
depends on. -/
lemma foldl_appends {I : σ → Prop} {f : σ → List α} {w : ι → List α}
    (hkeep : ∀ s i, I s → I (step s i)) (h : ∀ s i, I s → f (step s i) = f s ++ w i) {s : σ}
    (hs : I s) (l : List ι) : f (l.foldl step s) = f s ++ l.flatMap w := by
  induction l generalizing s with
  | nil => exact (List.append_nil _).symm
  | cons i l ih =>
    rw [List.foldl_cons, ih (hkeep s i hs), h s i hs, List.flatMap_cons, List.append_assoc]

lemma foldl_inv {I : σ → Prop} (hstep : ∀ s i, I s → I (step s i)) {s : σ} (h : I s)
    (l : List ι) : I (l.foldl step s) := by
  induction l generalizing s with
  | nil => exact h
  | cons i l ih => exact ih (hstep s i h)

/-! ### Latches -/

lemma exec_latch {P : σ → Prop} {Q : ι → Prop} (hstep : ∀ s i, P (step s i) ↔ Q i ∨ P s)
    (h0 : ¬ P s₀) (t : ℕ) : P (exec step s₀ inp t) ↔ ∃ u < t, Q (inp u) := by
  induction t with
  | zero => simp [h0]
  | succ t ih =>
    rw [exec_succ, hstep, ih]
    constructor
    · rintro (hq | ⟨u, hu, hq⟩)
      · exact ⟨t, by omega, hq⟩
      · exact ⟨u, by omega, hq⟩
    · rintro ⟨u, hu, hq⟩
      rcases Nat.lt_succ_iff_lt_or_eq.mp hu with hlt | rfl
      · exact Or.inr ⟨u, hlt, hq⟩
      · exact Or.inl hq

/-- **A latch follows its input exactly as long as the input, once set, stays set.** -/
theorem latch_follows_iff {P : σ → Prop} {Q : ι → Prop}
    (hstep : ∀ s i, P (step s i) ↔ Q i ∨ P s) (h0 : ¬ P s₀) (n : ℕ) :
    (∀ t < n, P (exec step s₀ inp (t + 1)) ↔ Q (inp t)) ↔
      ∀ t < n, ∀ u ≤ t, Q (inp u) → Q (inp t) := by
  refine forall₂_congr fun t ht => ?_
  rw [exec_latch hstep h0]
  constructor
  · intro h u hu hq
    exact h.mp ⟨u, by omega, hq⟩
  · intro h
    constructor
    · rintro ⟨u, hu, hq⟩
      exact h u (by omega) hq
    · intro hq
      exact ⟨t, by omega, hq⟩

/-! ### What a run emits -/

/-- Everything emitted on the clocks before `t`, in order. -/
def collect (out : ℕ → List α) : ℕ → List α
  | 0 => []
  | t + 1 => collect out t ++ out t

@[simp] lemma collect_zero (out : ℕ → List α) : collect out 0 = [] := rfl

lemma collect_succ (out : ℕ → List α) (t : ℕ) :
    collect out (t + 1) = collect out t ++ out t := rfl

lemma collect_add (out : ℕ → List α) (t u : ℕ) :
    collect out (t + u) = collect out t ++ collect (fun k => out (t + k)) u := by
  induction u with
  | zero => simp
  | succ u ih => rw [← Nat.add_assoc, collect_succ, collect_succ, ih, List.append_assoc]

lemma collect_initial (out : ℕ → List α) {t u : ℕ} (h : t ≤ u) :
    collect out t <+: collect out u := by
  obtain ⟨k, rfl⟩ := Nat.exists_eq_add_of_le h
  exact ⟨_, (collect_add out t k).symm⟩

lemma collect_congr {out out' : ℕ → List α} {t : ℕ} (h : ∀ u < t, out u = out' u) :
    collect out t = collect out' t := by
  induction t with
  | zero => rfl
  | succ t ih => rw [collect_succ, collect_succ, ih fun u hu => h u (by omega), h t (by omega)]

lemma collect_eq_nil {out : ℕ → List α} {t : ℕ} (h : ∀ u < t, out u = []) : collect out t = [] := by
  induction t with
  | zero => rfl
  | succ t ih =>
    rw [collect_succ, ih fun u hu => h u (by omega), h t (by omega)]
    rfl

lemma collect_once {out : ℕ → List α} {n k : ℕ} {v : α}
    (h : ∀ u < n, out u = if u = k then [v] else []) :
    collect out n = if k < n then [v] else [] := by
  induction n with
  | zero => simp
  | succ n ih =>
    rw [collect_succ, ih fun u hu => h u (by omega), h n (by omega)]
    split_ifs <;> first | rfl | omega

end Blastit.Lib.Clocked
