import Blastit.Rtl.Bin2bcd

/-!
Runs of the converter from reset, with any inputs.

Whatever the inputs do, the state `op` is only ever a pass of the conversion started last, and
the digits after it stand until the next start.
-/

namespace Blastit.Rtl.Bin2bcd

open Blastit.Lib.Clocked Blastit.Lib.Decimal

variable {p : Params}

abbrev run (ins : ℕ → In p) (t : ℕ) : State p := exec next reset ins t

/-- At clock `u` a start is taken. -/
def Starts (ins : ℕ → In p) (u : ℕ) : Prop :=
  (run ins u).stateReg = .idle ∧ (ins u).start = true

/-- The shift register that the start at clock `u` has loaded. -/
def latched (ins : ℕ → In p) (u : ℕ) : BitVec (p.bcdN * 3 + 1) := (run ins (u + 1)).p2sReg

/-- The digit registers, read as a decimal number. -/
def decimal (s : State p) : ℕ := ∑ g ∈ Finset.range p.bcdN, (bcd s g).toNat * 10 ^ g

/-- The registers hold decimal digits, and these make the number `x`, as far as there are
digits. -/
structure Decimal (s : State p) (x : ℕ) : Prop where
  digit_le : ∀ g < p.bcdN, (bcd s g).toNat ≤ 9
  value : decimal s = x % 10 ^ p.bcdN

lemma Shows.decimal {s : State p} {x : ℕ} (h : Shows s x) : Decimal s x where
  digit_le g _ := by
    rw [h g]
    exact Nat.le_of_lt_succ (digit_lt x g)
  value := by
    simp only [Bin2bcd.decimal, h _, sum_digit]

variable {ins : ℕ → In p} {t u k : ℕ}

lemma run_succ (ins : ℕ → In p) (t : ℕ) : run ins (t + 1) = next (run ins t) (ins t) := rfl

lemma Starts.latched (h : Starts ins u) : latched ins u = loaded (ins u) := by
  rw [Bin2bcd.latched, run_succ]
  simpa using (after_start h.1 h.2).p2s

lemma Starts.after (hN : 1 ≤ p.bcdN) (h : Starts ins u) (hk : k ≤ passes p.bcdN) :
    After (Bin2bcd.latched ins u) k (run ins (u + 1 + k)) := by
  rw [h.latched, Nat.add_assoc, Nat.add_comm 1 k]
  rw [run, exec_add]
  exact @exec_after p _ k (fun j => ins (u + j)) hN h.1 h.2 hk

/-- **The state `op` is a pass of a conversion.** -/
theorem exists_start (hN : 1 ≤ p.bcdN) (hop : (run ins t).stateReg = .op) :
    ∃ u k, Starts ins u ∧ k < passes p.bcdN ∧ t = u + 1 + k := by
  induction t with
  | zero => cases hop
  | succ t ih =>
    cases hstate : (run ins t).stateReg with
    | idle =>
      cases hstart : (ins t).start with
      | true => exact ⟨t, 0, ⟨hstate, hstart⟩, passes_pos _, rfl⟩
      | false =>
        rw [run_succ, next_of_idle hstate hstart, hstate] at hop
        cases hop
    | op =>
      obtain ⟨u, k, hu, hk, rfl⟩ := ih hstate
      refine ⟨u, k + 1, hu, ?_, rfl⟩
      have hphase := (hu.after hN (k := k + 1) hk).phase
      rw [← Nat.add_assoc, hop] at hphase
      by_contra hlast
      rw [if_pos (by omega)] at hphase
      cases hphase
    | done =>
      rw [run_succ] at hop
      simp [next, hstate] at hop

/-- After the last pass nothing changes the digits but a start. -/
lemma Starts.stands (hN : 1 ≤ p.bcdN) (h : Starts ins u) {n : ℕ}
    (hno : ∀ v, u < v → v < u + 1 + passes p.bcdN + n → ¬ Starts ins v) :
    (run ins (u + 1 + passes p.bcdN + n)).stateReg ≠ .op ∧
      Shows (run ins (u + 1 + passes p.bcdN + n))
        (topBits (Bin2bcd.latched ins u) (passes p.bcdN)) ∧
      bcd (run ins (u + 1 + passes p.bcdN + n)) = bcd (run ins (u + 1 + passes p.bcdN)) := by
  induction n with
  | zero =>
    have hlast := h.after hN (Nat.le_refl _)
    refine ⟨?_, hlast.shows, rfl⟩
    rw [Nat.add_zero, hlast.phase, if_pos rfl]
    exact Phase.noConfusion
  | succ n ih =>
    obtain ⟨hne, hshows, hsame⟩ := ih fun v hu hv => hno v hu (by omega)
    have hstart := hno (u + 1 + passes p.bcdN + n) (by omega) (by omega)
    rw [← Nat.add_assoc, run_succ]
    cases hstate : (run ins (u + 1 + passes p.bcdN + n)).stateReg with
    | idle =>
      have hlow : (ins (u + 1 + passes p.bcdN + n)).start = false := by
        simpa [Starts, hstate] using hstart
      rw [next_of_idle hstate hlow]
      exact ⟨hne, hshows, hsame⟩
    | op => exact absurd hstate hne
    | done =>
      simp only [next, hstate]
      exact ⟨Phase.noConfusion, hshows, hsame⟩

/-- **The double dabble core.** With four digits or more, and whatever the inputs do: in the
state `op` the digits are those of the bits shifted in so far, the passes are as many as the
bits of the shift register, and the digits after the last pass stand until the next start. -/
theorem doubleDabble (hN : 4 ≤ p.bcdN) (ins : ℕ → In p) :
    (∀ t, (run ins t).stateReg = .op →
      ∃ u k, Starts ins u ∧ k < p.bcdN * 3 + 1 ∧ t = u + 1 + k) ∧
    ∀ u, Starts ins u →
      (∀ k < p.bcdN * 3 + 1, (run ins (u + 1 + k)).stateReg = .op ∧
        Decimal (run ins (u + 1 + k)) (topBits (Bin2bcd.latched ins u) k)) ∧
      (run ins (u + 1 + (p.bcdN * 3 + 1))).stateReg = .done ∧
      ∀ t, u + 1 + (p.bcdN * 3 + 1) ≤ t → (∀ v, u < v → v < t → ¬ Starts ins v) →
        Decimal (run ins t) (Bin2bcd.latched ins u).toNat ∧
          bcd (run ins t) = bcd (run ins (u + 1 + (p.bcdN * 3 + 1))) := by
  have hN1 : 1 ≤ p.bcdN := by omega
  have hpasses := passes_of_le hN
  refine ⟨fun t hop => ?_, fun u h => ⟨fun k hk => ?_, ?_, fun t ht hno => ?_⟩⟩
  · rw [← hpasses]
    exact exists_start hN1 hop
  · have hafter := h.after hN1 (k := k) (by omega)
    refine ⟨?_, hafter.shows.decimal⟩
    rw [hafter.phase, if_neg (by omega)]
  · rw [← hpasses, (h.after hN1 (Nat.le_refl _)).phase, if_pos rfl]
  · rw [← hpasses] at ht
    obtain ⟨n, rfl⟩ := Nat.exists_eq_add_of_le ht
    obtain ⟨-, hshows, hsame⟩ := h.stands hN1 hno
    rw [topBits, left_out hN, Nat.pow_zero, Nat.div_one] at hshows
    refine ⟨hshows.decimal, ?_⟩
    rw [hsame, hpasses]

/-- One start, on the first clock. -/
def startOnce (t : ℕ) : In ⟨4, 14⟩ := ⟨t == 0, false, 1234⟩

theorem doubleDabble_startOnce :
    (run startOnce 8).stateReg = .op ∧ Decimal (run startOnce 8) (1234 / 2 ^ 6) ∧
      Decimal (run startOnce 20) 1234 := by
  obtain ⟨-, hconv⟩ := doubleDabble (p := ⟨4, 14⟩) (by decide) startOnce
  obtain ⟨hop, -, hstands⟩ := hconv 0 ⟨rfl, rfl⟩
  have hlatched : (latched startOnce 0).toNat = 1234 := rfl
  have hlow : ∀ v, 0 < v → v < 20 → ¬ Starts startOnce v := fun v hv _ h => by
    have hstart := h.2
    simp [startOnce, Nat.ne_of_gt hv] at hstart
  refine ⟨(hop 7 (by decide)).1, ?_, ?_⟩
  · have h7 := (hop 7 (by decide)).2
    rwa [topBits, hlatched] at h7
  · have h20 := (hstands 20 (by decide) hlow).1
    rwa [hlatched] at h20

end Blastit.Rtl.Bin2bcd
