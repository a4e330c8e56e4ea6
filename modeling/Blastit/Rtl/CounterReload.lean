import Blastit.Rtl.ModMCounter

/-!
`mod_m_counter` while its maximum changes.

The counter compares for equality only. A maximum that is lowered below the count is met after
the counter has gone round its whole width.
-/

namespace Blastit.Rtl.ModMCounter

open Blastit.Lib.Clocked Blastit.Lib.Sizing

variable {M : ℕ} {v : BitVec M} {s : State M} {d j n : ℕ}

def distance (v : BitVec M) (s : State M) : ℕ := (v - s.rReg).toNat

/-- A tick on one of the next `n` clocks while the maximum is `v`. -/
def TicksWithin (n : ℕ) (v : BitVec M) (s : State M) : Prop :=
  ∃ j, 0 < j ∧ j ≤ n ∧ maxTick (exec next s (fun _ => v) j) = true

/-! ### One clock -/

lemma distance_eq_zero : distance v s = 0 ↔ s.rReg = v := by
  have hzero : (0 : BitVec M).toNat = 0 := BitVec.toNat_zero
  rw [distance, ← hzero, BitVec.toNat_inj, sub_eq_zero, eq_comm]

lemma next_at (h : distance v s = 0) : maxTick (next s v) = true := by
  simp [next, maxTick, distance_eq_zero.mp h]

lemma next_before (h : distance v s = d + 1) :
    maxTick (next s v) = false ∧ distance v (next s v) = d := by
  have hne : s.rReg ≠ v := mt distance_eq_zero.mpr (by omega)
  have hnext : next s v = ⟨s.rReg + 1, false⟩ := if_neg (by simpa using hne)
  rw [hnext]
  refine ⟨rfl, ?_⟩
  have hpos : 1 ≤ (v - s.rReg).toNat := by
    rw [distance] at h
    omega
  have hpred : distance v (⟨s.rReg + 1, false⟩ : State M) = (v - s.rReg).toNat - 1 := by
    rw [distance, ← sub_sub, toNat_pred hpos]
  rw [hpred, ← distance, h]
  omega

/-! ### The next tick -/

/-- **With the maximum held, the next tick comes one clock after the distance is covered**. -/
lemma maxTick_iff_distance (hj : j ≤ distance v s) :
    maxTick (exec next s (fun _ => v) (j + 1)) = true ↔ j = distance v s := by
  induction j generalizing s with
  | zero =>
    cases h : distance v s with
    | zero => exact iff_of_true (next_at h) rfl
    | succ d => simp [exec_succ, (next_before h).1]
  | succ j ih =>
    obtain ⟨d, hd⟩ : ∃ d, distance v s = d + 1 := ⟨distance v s - 1, by omega⟩
    have hshift : exec next s (fun _ => v) (j + 1 + 1) =
        exec next (next s v) (fun _ => v) (j + 1) := by
      rw [Nat.add_comm (j + 1), exec_add]
      rfl
    obtain ⟨-, hnext⟩ := next_before hd
    rw [hshift, ih (by omega), hnext, hd, Nat.add_right_cancel_iff]

theorem ticksWithin_iff_distance : TicksWithin n v s ↔ distance v s < n := by
  constructor
  · rintro ⟨j, hj0, hjn, ht⟩
    by_contra hge
    obtain ⟨k, rfl⟩ := Nat.exists_eq_succ_of_ne_zero (Nat.ne_of_gt hj0)
    have := (maxTick_iff_distance (by omega)).mp ht
    omega
  · intro h
    exact ⟨distance v s + 1, by omega, h, (maxTick_iff_distance le_rfl).mpr rfl⟩

/-- Ahead of the count the maximum is as far away as it looks; behind it, the rest of the width
comes on top. -/
lemma distance_eq : distance v s =
    if s.rReg.toNat ≤ v.toNat then v.toNat - s.rReg.toNat
    else 2 ^ M - s.rReg.toNat + v.toNat := by
  have hv := v.isLt
  have hs := s.rReg.isLt
  rw [distance, BitVec.toNat_sub]
  split
  · next hle =>
    rw [show 2 ^ M - s.rReg.toNat + v.toNat = v.toNat - s.rReg.toNat + 2 ^ M by omega,
      Nat.add_mod_right, Nat.mod_eq_of_lt (by omega)]
  · next hlt => exact Nat.mod_eq_of_lt (by omega)

/-! ### Runs -/

/-- **A counter whose maximum changed as it liked and is held from clock `t` on ticks in time
exactly if the count has not passed the maximum**, or is about to wrap. -/
theorem ticksWithin_iff (inp : ℕ → BitVec M) (t : ℕ) (v : BitVec M) :
    TicksWithin (v.toNat + 2) v (exec next reset inp t) ↔
      (exec next reset inp t).rReg.toNat ≤ v.toNat ∨
        (exec next reset inp t).rReg.toNat = 2 ^ M - 1 := by
  have hs := (exec next reset inp t).rReg.isLt
  rw [ticksWithin_iff_distance, distance_eq]
  split <;> omega

/-- From 163 down to 16 after 20 clocks: the next tick takes 253. -/
theorem not_ticksWithin_lowered :
    ¬ TicksWithin (16 + 2) (16 : BitVec 8) (exec next reset (fun _ => 163) 20) := by
  rw [ticksWithin_iff_distance]
  decide

lemma le_of_raised {inp : ℕ → BitVec M} (hraised : ∀ u, inp u ≤ inp (u + 1)) (t : ℕ) :
    (exec next reset inp t).rReg ≤ inp t := by
  induction t with
  | zero => exact Nat.zero_le _
  | succ t ih =>
    rw [exec_succ, next]
    split
    · exact Nat.zero_le _
    · next hne =>
      have hlt : (exec next reset inp t).rReg.toNat < (inp t).toNat :=
        Nat.lt_of_le_of_ne ih (mt BitVec.eq_of_toNat_eq (by simpa using hne))
      have hup : (inp t).toNat ≤ (inp (t + 1)).toNat := hraised t
      have hmax := (inp t).isLt
      show ((exec next reset inp t).rReg + 1).toNat ≤ (inp (t + 1)).toNat
      rw [toNat_succ (by omega)]
      omega

/-- Raised only, the counter ticks in time. -/
theorem ticksWithin_of_raised {inp : ℕ → BitVec M} (hraised : ∀ u, inp u ≤ inp (u + 1)) (t : ℕ) :
    TicksWithin ((inp t).toNat + 1) (inp t) (exec next reset inp t) := by
  have hle : (exec next reset inp t).rReg.toNat ≤ (inp t).toNat := le_of_raised hraised t
  rw [ticksWithin_iff_distance, distance_eq, if_pos hle]
  omega

end Blastit.Rtl.ModMCounter
