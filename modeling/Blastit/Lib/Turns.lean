import Blastit.Lib.Ticks
import Mathlib.Data.Nat.ModEq

/-!
Two periodic streams of ticks that take turns.

Both streams have the period `Q`; they differ in the clock they start at. A selector gives
the second its turn on a tick of the first, and the first its turn on a tick of the second;
when both tick at once the first keeps the turn. Seen from the ticks of the first, its turn
begins `Δ` clocks later, where `Δ` is the shift between the two streams, and lasts to its
next tick.
-/

namespace Blastit.Lib.Turns

open Blastit.Lib.Ticks

variable {Q r r₁ r₂ Δ : ℕ} {d d₁ d₂ sel : ℕ → Bool} {a n o t u x y : ℕ}

/-! ### Periodic streams -/

/-- `d` ticks every `Q` clocks from clock `r` on, clock `r` itself left out. -/
def Every (Q r : ℕ) (d : ℕ → Bool) : Prop := ∀ t, d t = true ↔ r < t ∧ r ≡ t [MOD Q]

lemma eq_of_modEq (h : x ≡ y [MOD Q]) (h1 : x < y + Q) (h2 : y < x + Q) : x = y := by
  refine h.eq_of_abs_lt ?_
  rw [abs_lt]
  omega

lemma modEq_add_period (x : ℕ) : x ≡ x + Q [MOD Q] := by
  simp [Nat.ModEq]

lemma Every.not_near (h : Every Q r d) (hy : r ≡ y [MOD Q]) (hne : u ≠ y) (h1 : u < y + Q)
    (h2 : y < u + Q) : d u = false := by
  by_contra hd
  have hu := ((h u).mp (by simpa using hd)).2
  exact hne (eq_of_modEq (hu.symm.trans hy) h1 h2)

/-- A clock after the start lies less than a period after a tick, or after the start. -/
lemma exists_base (hQ : 0 < Q) (h : r ≤ t) :
    ∃ x o, r ≡ x [MOD Q] ∧ r ≤ x ∧ t = x + o ∧ o < Q := by
  refine ⟨r + Q * ((t - r) / Q), (t - r) % Q, ?_, by omega, ?_, Nat.mod_lt _ hQ⟩
  · simp [Nat.ModEq]
  · have := Nat.div_add_mod (t - r) Q
    omega

lemma Every.two (h : Every Q r d) (hw : 2 ≤ ticks d a n) :
    ∃ x, a ≤ x ∧ x + Q < a + n ∧ r < x ∧ r ≡ x [MOD Q] := by
  obtain ⟨i, j, hij, hj, hti, htj⟩ := two_le_ticks.mp hw
  obtain ⟨hi, hmi⟩ := (h _).mp hti
  obtain ⟨-, hmj⟩ := (h _).mp htj
  refine ⟨a + i, by omega, ?_, hi, hmi⟩
  by_contra hge
  have := eq_of_modEq (hmi.symm.trans hmj) (by omega) (by omega)
  omega

lemma Every.two_le (h : Every Q r d) (hQ : 0 < Q) (hr : r ≤ a) (hn : 2 * Q < n) :
    2 ≤ ticks d a n := by
  obtain ⟨x, o, hx, hle, rfl, ho⟩ := exists_base hQ hr
  have h1 := (hx.trans (modEq_add_period x))
  have h2 := (h1.trans (modEq_add_period (x + Q)))
  refine two_le_ticks.mpr ⟨Q - o, 2 * Q - o, by omega, by omega, ?_, ?_⟩
  · rw [show x + o + (Q - o) = x + Q by omega]
    exact (h _).mpr ⟨by omega, h1⟩
  · rw [show x + o + (2 * Q - o) = x + Q + Q by omega]
    exact (h _).mpr ⟨by omega, h2⟩

/-! ### Turns -/

/-- `sel` is high while it is the second stream's turn. -/
structure Alternates (d₁ d₂ sel : ℕ → Bool) : Prop where
  first : ∀ t, d₂ t = true → sel t = false
  second : ∀ t, d₁ t = true → d₂ t = false → sel t = true
  keep : ∀ t, d₁ (t + 1) = false → d₂ (t + 1) = false → sel (t + 1) = sel t

lemma Alternates.keep_run (h : Alternates d₁ d₂ sel) (hle : x ≤ t)
    (hno : ∀ u, x < u → u ≤ t → d₁ u = false ∧ d₂ u = false) : sel t = sel x := by
  induction t, hle using Nat.le_induction with
  | base => rfl
  | succ t hxt ih =>
    obtain ⟨h1, h2⟩ := hno (t + 1) (by omega) (le_refl _)
    rw [h.keep t h1 h2]
    exact ih fun u hu hut => hno u hu (by omega)

structure Shift (Q r₁ r₂ Δ : ℕ) : Prop where
  lt : Δ < Q
  eq : r₂ ≡ r₁ + Δ [MOD Q]

def shift (Q r₁ r₂ : ℕ) : ℕ := (r₂ + (Q - r₁ % Q)) % Q

lemma shift_spec (hQ : 0 < Q) : Shift Q r₁ r₂ (shift Q r₁ r₂) := by
  refine ⟨Nat.mod_lt _ hQ, ?_⟩
  have hmod := Nat.mod_lt r₁ hQ
  have hdiv := Nat.div_add_mod r₁ Q
  have h1 : r₁ + shift Q r₁ r₂ ≡ r₁ + (r₂ + (Q - r₁ % Q)) [MOD Q] :=
    (Nat.mod_modEq _ Q).add_left r₁
  have h2 : r₁ + (r₂ + (Q - r₁ % Q)) = r₂ + Q * (r₁ / Q + 1) := by
    rw [Nat.mul_add]
    omega
  refine (h1.trans ?_).symm
  rw [h2]
  simp [Nat.ModEq]

section
variable (h : Alternates d₁ d₂ sel) (h₁ : Every Q r₁ d₁) (h₂ : Every Q r₂ d₂) (hs : Shift Q r₁ r₂ Δ)
include h h₁ h₂ hs

/-- From `Δ` clocks after a tick of the first stream to its next one, it is its turn. -/
lemma Alternates.sel_false (hx : r₁ ≡ x [MOD Q]) (hd : r₂ < x + Δ) (hΔ : Δ ≤ o) (ho : o < Q) :
    sel (x + o) = false := by
  have hxΔ : r₂ ≡ x + Δ [MOD Q] := hs.eq.trans (hx.add_right Δ)
  have hlt := hs.lt
  rw [← h.first (x + Δ) ((h₂ _).mpr ⟨hd, hxΔ⟩)]
  refine h.keep_run (by omega) fun u hu hut => ⟨?_, ?_⟩
  · exact h₁.not_near hx (by omega) (by omega) (by omega)
  · exact h₂.not_near hxΔ (by omega) (by omega) (by omega)

/-- Before that it is the turn of the second. -/
lemma Alternates.sel_true (hx : r₁ ≡ x [MOD Q]) (hd : r₁ < x) (ho : o < Δ) : sel (x + o) = true := by
  have hxΔ : r₂ ≡ x + Δ [MOD Q] := hs.eq.trans (hx.add_right Δ)
  have hlt := hs.lt
  have hno : ∀ u, x ≤ u → u ≤ x + o → d₂ u = false := fun u hu hut =>
    h₂.not_near hxΔ (by omega) (by omega) (by omega)
  rw [← h.second x ((h₁ _).mpr ⟨hd, hx⟩) (hno x (le_refl _) (by omega))]
  refine h.keep_run (by omega) fun u hu hut => ⟨?_, hno u (by omega) hut⟩
  exact h₁.not_near hx (by omega) (by omega) (by omega)

/-- **Whose turn it is**, once both streams have ticked. -/
theorem Alternates.sel_iff (h1 : r₁ + Q ≤ t) (h2 : r₂ + Q ≤ t) :
    ∃ x o, r₁ ≡ x [MOD Q] ∧ r₁ < x ∧ t = x + o ∧ o < Q ∧ (sel t = true ↔ o < Δ) := by
  have hlt := hs.lt
  obtain ⟨x, o, hx, hle, he, ho⟩ := exists_base (show 0 < Q by omega) (show r₁ ≤ t by omega)
  have hlt' : r₁ < x := by omega
  refine ⟨x, o, hx, hlt', he, ho, ?_⟩
  rw [he]
  rcases Nat.lt_or_ge o Δ with hoΔ | hoΔ
  · simp [h.sel_true h₁ h₂ hs hx hlt' hoΔ, hoΔ]
  · rw [h.sel_false h₁ h₂ hs hx (by omega) hoΔ ho]
    simp
    exact hoΔ

/-- In a window with two ticks of each, the first stream has its turn `o` clocks after a
tick, for every `o` from the shift on. -/
theorem Alternates.exists_first (hw1 : 2 ≤ ticks d₁ a n) (hw2 : 2 ≤ ticks d₂ a n) (hΔ : Δ ≤ o)
    (ho : o < Q) :
    ∃ x, r₁ ≡ x [MOD Q] ∧ r₁ ≤ x ∧ a ≤ x + o ∧ x + o < a + n ∧ sel (x + o) = false := by
  have hlt := hs.lt
  obtain ⟨y₁, ha1, hb1, hr1, hm1⟩ := h₁.two hw1
  obtain ⟨y₂, ha2, hb2, hr2, hm2⟩ := h₂.two hw2
  have hy1 : r₁ + Q ≤ y₁ := by
    by_contra hlt'
    have := eq_of_modEq hm1 (by omega) (by omega)
    omega
  rcases Nat.lt_or_ge r₁ y₂ with hlt' | hge
  · -- the turn that the tick at `y₂` opens
    obtain ⟨x, e, hx, hle, he, heQ⟩ := exists_base (show 0 < Q by omega) hlt'.le
    have heΔ : e = Δ := by
      have hmod : x + Δ ≡ x + e [MOD Q] := by
        rw [← he]
        exact ((hs.eq.trans (hx.add_right Δ)).symm.trans hm2)
      have := eq_of_modEq hmod (by omega) (by omega)
      omega
    exact ⟨x, hx, hle, by omega, by omega,
      h.sel_false h₁ h₂ hs hx (by omega) hΔ ho⟩
  · -- the first stream starts later: its first turn
    refine ⟨r₁, Nat.ModEq.refl _, le_refl _, by omega, by omega, ?_⟩
    exact h.sel_false h₁ h₂ hs (Nat.ModEq.refl _) (by omega) hΔ ho

/-- The same for the second stream, `o` clocks after a tick of its own. -/
theorem Alternates.exists_second (hw1 : 2 ≤ ticks d₁ a n) (hw2 : 2 ≤ ticks d₂ a n) (hpos : 0 < Δ)
    (hΔ : Q ≤ Δ + o) (ho : o < Q) :
    ∃ x, r₂ ≡ x [MOD Q] ∧ r₂ ≤ x ∧ a ≤ x + o ∧ x + o < a + n ∧ sel (x + o) = true := by
  have hlt := hs.lt
  obtain ⟨y₁, ha1, hb1, hr1, hm1⟩ := h₁.two hw1
  obtain ⟨y₂, ha2, hb2, hr2, hm2⟩ := h₂.two hw2
  have hy2 : r₂ + Q ≤ y₂ := by
    by_contra hlt'
    have := eq_of_modEq hm2 (by omega) (by omega)
    omega
  -- a tick of the second stream is `Q - Δ` clocks before one of the first
  have hback : ∀ x, r₂ ≡ x [MOD Q] → r₁ ≡ x + (Q - Δ) [MOD Q] := fun x hx => by
    have h1 : r₁ + Δ + (Q - Δ) ≡ x + (Q - Δ) [MOD Q] :=
      (hs.eq.symm.trans hx).add_right (Q - Δ)
    rw [show r₁ + Δ + (Q - Δ) = r₁ + Q by omega] at h1
    exact (modEq_add_period r₁).trans h1
  have hsel : ∀ x, r₂ ≡ x [MOD Q] → r₁ < x + (Q - Δ) → sel (x + o) = true := fun x hx hr => by
    have := h.sel_true h₁ h₂ hs (hback x hx) hr (show o - (Q - Δ) < Δ by omega)
    rwa [show x + (Q - Δ) + (o - (Q - Δ)) = x + o by omega] at this
  rcases Nat.lt_or_ge r₂ y₁ with hlt' | hge
  · obtain ⟨x, e, hx, hle, he, heQ⟩ := exists_base (show 0 < Q by omega) hlt'.le
    have heΔ : e = Q - Δ := by
      have hmod : x + (Q - Δ) ≡ x + e [MOD Q] := by
        rw [← he]
        exact ((hback x hx).symm.trans hm1)
      have := eq_of_modEq hmod (by omega) (by omega)
      omega
    exact ⟨x, hx, hle, by omega, by omega, hsel x hx (by omega)⟩
  · exact ⟨r₂, Nat.ModEq.refl _, le_refl _, by omega, by omega,
      hsel r₂ (Nat.ModEq.refl _) (by omega)⟩

end

/-! ### Positions of a scan -/

/-- A scan of `K` positions of `P` clocks each stands, `o` clocks after it began, at the
position whose interval `o` falls into. -/
lemma scan_position {K P : ℕ} (hP : 0 < P) (hx : r ≡ x [MOD K * P]) (hle : r ≤ x) (ho : 0 < o)
    (hoQ : o ≤ K * P) : (x + o - r - 1) / P % K = (o - 1) / P := by
  obtain ⟨q, hq⟩ := (Nat.modEq_iff_dvd' hle).mp hx
  have he : x + o - r - 1 = (o - 1) + P * (K * q) := by
    have : K * P * q = P * (K * q) := by ring
    omega
  rw [he, Nat.add_mul_div_left _ _ hP, Nat.add_mul_mod_self_left, Nat.mod_eq_of_lt]
  exact (Nat.div_lt_iff_lt_mul hP).mpr (by omega)

lemma position_iff {P k : ℕ} (hP : 0 < P) (ho : 0 < o) :
    (o - 1) / P = k ↔ k * P < o ∧ o ≤ (k + 1) * P := by
  rw [Nat.div_eq_iff hP, Nat.succ_mul]
  omega

end Blastit.Lib.Turns
