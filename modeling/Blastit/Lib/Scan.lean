import Blastit.Lib.Ticks

/-!
Scans: an index that every tick moves on by one, and that starts over after the last of `K`
positions, with a signal on the tick that makes it start over.

What such a scan is for is `Covers`: the signal comes once in any `K` ticks, and between two
signals each position has its turn, from one tick to the next. The ticks may come at any clocks.
-/

namespace Blastit.Lib.Scan

open Blastit.Lib.Ticks

variable {K : ℕ} {tick done : ℕ → Bool} {pos : ℕ → ℕ}

/-- The clocks after `b` and up to `c` lead from one tick to the next. -/
structure Interval (tick : ℕ → Bool) (b c : ℕ) : Prop where
  lt : b < c
  first : tick b = true
  last : tick c = true
  between : ∀ t, b < t → t < c → tick t = false

structure Covers (K : ℕ) (tick done : ℕ → Bool) (selected : ℕ → ℕ → Prop) : Prop where
  once : ∀ a n, ticks tick a n = K → ticks done a n = 1
  each : ∀ d e, d < e → done d = true → done e = true → (∀ t, d < t → t < e → done t = false) →
    ∀ k < K, ∃ b c, d ≤ b ∧ c ≤ e ∧ Interval tick b c ∧
      ∀ t, d < t → t ≤ e → (selected k t ↔ b < t ∧ t ≤ c)

structure Scans (K : ℕ) (tick done : ℕ → Bool) (pos : ℕ → ℕ) : Prop where
  lt : ∀ t, pos t < K
  step : ∀ t, pos (t + 1) =
    if tick t = true then if pos t + 1 = K then 0 else pos t + 1 else pos t
  done_iff : ∀ t, done t = true ↔ tick t = true ∧ pos t + 1 = K

lemma Scans.pos_add (h : Scans K tick done pos) (a n : ℕ) :
    pos (a + n) = (pos a + ticks tick a n) % K := by
  have hK : 0 < K := Nat.lt_of_le_of_lt (Nat.zero_le _) (h.lt a)
  induction n with
  | zero => rw [ticks_zero, Nat.add_zero, Nat.add_zero, Nat.mod_eq_of_lt (h.lt a)]
  | succ n ih =>
    rw [← Nat.add_assoc, h.step, ticks_succ, ih]
    split
    · rw [← Nat.add_assoc, add_one_mod hK]
    · rfl

lemma Scans.ticks_done (h : Scans K tick done pos) (a n : ℕ) :
    ticks done a n = (pos a + ticks tick a n) / K := by
  have hK : 0 < K := Nat.lt_of_le_of_lt (Nat.zero_le _) (h.lt a)
  induction n with
  | zero => rw [ticks_zero, ticks_zero, Nat.add_zero, Nat.div_eq_of_lt (h.lt a)]
  | succ n ih =>
    rw [ticks_succ, ticks_succ, ih]
    simp only [h.done_iff, h.pos_add a n, add_one_mod_eq_iff hK]
    by_cases ht : tick (a + n) = true
    · simp only [ht, true_and, if_true, ← Nat.add_assoc, Nat.succ_div]
    · simp only [ht, false_and, if_false, Nat.add_zero, Bool.false_eq_true]

lemma Scans.ticks_between (h : Scans K tick done pos) {d n : ℕ} (hn : 0 < n) (hd : done d = true)
    (he : done (d + n) = true) (hnone : ∀ t, d < t → t < d + n → done t = false) :
    ticks tick d n = K := by
  have hK : 0 < K := Nat.lt_of_le_of_lt (Nat.zero_le _) (h.lt d)
  have hposd : pos d + 1 = K := ((h.done_iff d).mp hd).2
  have hpose : pos (d + n) + 1 = K := ((h.done_iff _).mp he).2
  have hone : ticks done d n = 1 := by
    have hlast : ∀ m, ticks done d (m + 1) = 1 ∨ n ≤ m := by
      intro m
      induction m with
      | zero => exact .inl (by rw [ticks_succ, ticks_zero, Nat.add_zero, if_pos hd])
      | succ m ih =>
        rcases Nat.lt_or_ge (m + 1) n with hlt | hge
        · refine .inl ?_
          rw [ticks_succ, hnone (d + (m + 1)) (by omega) (by omega)]
          exact ih.resolve_right (by omega)
        · exact .inr hge
    obtain ⟨m, rfl⟩ := Nat.exists_eq_succ_of_ne_zero hn.ne'
    exact (hlast m).resolve_right (by omega)
  rw [h.ticks_done] at hone
  rw [h.pos_add] at hpose
  have hdiv := Nat.div_add_mod (pos d + ticks tick d n) K
  rw [hone, Nat.mul_one] at hdiv
  omega

/-- The index between two signals is one short of the ticks since the first. -/
lemma Scans.pos_eq (h : Scans K tick done pos) {d n k : ℕ} (hd : done d = true)
    (hpos : 0 < ticks tick d n) (hle : ticks tick d n ≤ K) :
    pos (d + n) = k ↔ ticks tick d n = k + 1 := by
  have hposd : pos d + 1 = K := ((h.done_iff d).mp hd).2
  have he : pos d + ticks tick d n = ticks tick d n - 1 + K := by omega
  rw [h.pos_add, he, Nat.add_mod_right, Nat.mod_eq_of_lt (by omega)]
  omega

/-- **A scan covers its positions**, whenever the ticks come. -/
theorem Scans.covers (h : Scans K tick done pos) {selected : ℕ → ℕ → Prop}
    (hsel : ∀ k < K, ∀ t, selected k t ↔ pos t = k) : Covers K tick done selected where
  once a n hn := by
    have hK : 0 < K := Nat.lt_of_le_of_lt (Nat.zero_le _) (h.lt a)
    rw [h.ticks_done, hn, Nat.add_div_right _ hK, Nat.div_eq_of_lt (h.lt a)]
  each d e hde hd he hnone k hk := by
    obtain ⟨n, rfl⟩ := Nat.exists_eq_add_of_le hde.le
    have hn : 0 < n := by omega
    have hticks : ticks tick d n = K := h.ticks_between hn hd he hnone
    have htd : tick d = true := ((h.done_iff d).mp hd).1
    have hte : tick (d + n) = true := ((h.done_iff _).mp he).1
    have hall : ticks tick d (n + 1) = K + 1 := by rw [ticks_succ, hticks, if_pos hte]
    -- the turn of position `k` is from tick number `k` to the next, the signal being number zero
    obtain ⟨i, hi, hti, hci⟩ := exists_tick (show k < ticks tick d (n + 1) by omega)
    obtain ⟨j, hj, htj, hcj⟩ := exists_tick (show k + 1 < ticks tick d (n + 1) by omega)
    have hturn := fun m => ticks_eq_succ_iff hti hci htj hcj (n := m)
    refine ⟨d + i, d + j, by omega, by omega, ⟨?_, hti, htj, fun t hbt htc => ?_⟩, fun t hdt hte => ?_⟩
    · have := (hturn j).mp hcj
      omega
    · obtain ⟨m, rfl⟩ := Nat.exists_eq_add_of_le (show d ≤ t by omega)
      refine Bool.eq_false_iff.mpr fun ht => ?_
      have hm := (hturn m).mpr ⟨by omega, by omega⟩
      have hle : ticks tick d (m + 1) ≤ ticks tick d j := ticks_mono (by omega)
      rw [ticks_succ, if_pos ht] at hle
      omega
    · obtain ⟨m, rfl⟩ := Nat.exists_eq_add_of_le hdt.le
      have hpos : ticks tick d 1 ≤ ticks tick d m := ticks_mono (by omega)
      have hle : ticks tick d m ≤ ticks tick d n := ticks_mono (by omega)
      rw [ticks_succ, ticks_zero, Nat.add_zero, if_pos htd] at hpos
      rw [hsel k hk, h.pos_eq hd (by omega) (by omega), hturn]
      omega

lemma Covers.exists_done {selected : ℕ → ℕ → Prop} (h : Covers K tick done selected)
    (hticks : ∀ n, ∃ j, n ≤ j ∧ tick j = true) : ∃ t, done t = true := by
  obtain ⟨n, hn⟩ := exists_ticks_eq (a := 0) (by simpa using hticks) K
  obtain ⟨j, -, hj, -⟩ := exists_tick (show 0 < ticks done 0 n by rw [h.once 0 n hn]; omega)
  exact ⟨0 + j, hj⟩

lemma Covers.nonempty {selected : ℕ → ℕ → Prop} (h : Covers K tick done selected) : 0 < K := by
  refine Nat.pos_of_ne_zero fun h0 => ?_
  have := h.once 0 0 (by rw [ticks_zero, h0])
  rw [ticks_zero] at this
  omega

end Blastit.Lib.Scan
