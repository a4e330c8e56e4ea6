import Mathlib.Data.Nat.Count
import Mathlib.Tactic.Ring
import Mathlib.Tactic.Common

/-!
Counting ticks, and machines that dwell in slots for given numbers of ticks.

A tick stream says at which clocks a rate generator fires. A serial line is sent and
sampled by machines that stay in a *slot* (a start bit, a data bit, a stop bit) for a
number of ticks and then move on to the next one; where such a machine stands is settled
by the number of ticks since it entered the first slot. When the ticks come from a
countdown of period `P`, that number is settled by the clock.
-/

namespace Blastit.Lib.Ticks

/-- The ticks on the `j` clocks from clock `a` on. -/
def ticks (tick : ℕ → Bool) (a j : ℕ) : ℕ := Nat.count (fun k => tick (a + k) = true) j

variable {tick : ℕ → Bool} {a : ℕ}

@[simp] lemma ticks_zero : ticks tick a 0 = 0 := Nat.count_zero _

lemma ticks_succ (j : ℕ) :
    ticks tick a (j + 1) = ticks tick a j + if tick (a + j) = true then 1 else 0 :=
  Nat.count_succ _ j

lemma ticks_mono {i j : ℕ} (h : i ≤ j) : ticks tick a i ≤ ticks tick a j :=
  Nat.count_monotone _ h

lemma ticks_add (i j : ℕ) : ticks tick a (i + j) = ticks tick a i + ticks tick (a + i) j := by
  unfold ticks
  rw [Nat.count_add]
  simp only [Nat.add_assoc]

lemma ticks_of_periodic {n : ℕ} (h : ∀ t, tick (t + n) = tick t) (a : ℕ) :
    ticks tick a n = ticks tick 0 n := by
  have hleft : ticks tick 0 (a + n) = ticks tick 0 a + ticks tick a n := by
    rw [ticks_add, Nat.zero_add]
  have hright : ticks tick 0 (n + a) = ticks tick 0 n + ticks tick n a := by
    rw [ticks_add, Nat.zero_add]
  have hshift : ticks tick n a = ticks tick 0 a := by
    unfold ticks
    simp only [Nat.add_comm n, h, Nat.zero_add]
  rw [Nat.add_comm a n] at hleft
  omega

lemma tick_unique {i j : ℕ} (hi : tick (a + i) = true) (hj : tick (a + j) = true)
    (h : ticks tick a i = ticks tick a j) : i = j := by
  have aux : ∀ {i j : ℕ}, tick (a + i) = true → ticks tick a i = ticks tick a j → ¬ i < j := by
    intro i j hi h hlt
    have : ticks tick a (i + 1) ≤ ticks tick a j := ticks_mono hlt
    rw [ticks_succ, if_pos hi] at this
    omega
  have h1 := aux hi h
  have h2 := aux hj h.symm
  omega

/-- Tick number `m`, from zero, where there is one. -/
lemma exists_tick {m n : ℕ} (h : m < ticks tick a n) :
    ∃ j < n, tick (a + j) = true ∧ ticks tick a j = m := by
  induction n with
  | zero => simp at h
  | succ n ih =>
    rcases Nat.lt_or_ge m (ticks tick a n) with hlt | hge
    · obtain ⟨j, hj, ht, hm⟩ := ih hlt
      exact ⟨j, by omega, ht, hm⟩
    · rw [ticks_succ] at h
      split at h
      · next ht => exact ⟨n, by omega, ht, by omega⟩
      · omega

lemma ticks_eq_succ_iff {i j k n : ℕ} (hi : tick (a + i) = true) (hci : ticks tick a i = k)
    (hj : tick (a + j) = true) (hcj : ticks tick a j = k + 1) :
    ticks tick a n = k + 1 ↔ i < n ∧ n ≤ j := by
  have hsi : ticks tick a (i + 1) = k + 1 := by rw [ticks_succ, if_pos hi, hci]
  have hsj : ticks tick a (j + 1) = k + 2 := by rw [ticks_succ, if_pos hj, hcj]
  constructor
  · intro hn
    constructor
    · by_contra hle
      have : ticks tick a n ≤ ticks tick a i := ticks_mono (by omega)
      omega
    · by_contra hlt
      have : ticks tick a (j + 1) ≤ ticks tick a n := ticks_mono (by omega)
      omega
  · rintro ⟨hin, hnj⟩
    have h1 : ticks tick a (i + 1) ≤ ticks tick a n := ticks_mono hin
    have h2 : ticks tick a n ≤ ticks tick a j := ticks_mono hnj
    omega

lemma exists_ticks_eq (h : ∀ n, ∃ j, n ≤ j ∧ tick (a + j) = true) (m : ℕ) :
    ∃ j, ticks tick a j = m := by
  induction m with
  | zero => exact ⟨0, ticks_zero⟩
  | succ m ih =>
    obtain ⟨n, hn⟩ := ih
    obtain ⟨k, hk, ht⟩ := h n
    have hlt : m < ticks tick a (k + 1) := by
      rw [ticks_succ, if_pos ht]
      have : ticks tick a n ≤ ticks tick a k := ticks_mono hk
      omega
    obtain ⟨j, -, htj, hj⟩ := exists_tick hlt
    exact ⟨j + 1, by rw [ticks_succ, if_pos htj, hj]⟩

lemma two_le_ticks {n : ℕ} :
    2 ≤ ticks tick a n ↔ ∃ i j, i < j ∧ j < n ∧ tick (a + i) = true ∧ tick (a + j) = true := by
  constructor
  · intro h
    obtain ⟨j, hj, htj, hcj⟩ := exists_tick (show 1 < ticks tick a n by omega)
    obtain ⟨i, hi, hti, -⟩ := exists_tick (show 0 < ticks tick a j by omega)
    exact ⟨i, j, hi, hj, hti, htj⟩
  · rintro ⟨i, j, hij, hj, hti, htj⟩
    have h1 : ticks tick a (i + 1) ≤ ticks tick a j := ticks_mono hij
    have h2 : ticks tick a (j + 1) ≤ ticks tick a n := ticks_mono hj
    rw [ticks_succ, if_pos hti] at h1
    rw [ticks_succ, if_pos htj] at h2
    omega

/-! ### A countdown -/

/-- `c` counts the clocks down to the next tick and reloads with `P - 1`. -/
structure Train (P : ℕ) (c : ℕ → ℕ) (tick : ℕ → Bool) : Prop where
  pos : 0 < P
  tick_iff : ∀ t, tick t = true ↔ c t = 0
  step : ∀ t, c (t + 1) = if c t = 0 then P - 1 else c t - 1

variable {P : ℕ} {c : ℕ → ℕ}

/-- **Where the ticks of a countdown are**: tick number `m` after clock `a`, from zero, is
at clock `a + c a + m * P`. -/
theorem Train.lt_ticks_iff (h : Train P c tick) (a m j : ℕ) :
    m < ticks tick a j ↔ c a + m * P < j := by
  have hP := h.pos
  induction j generalizing a m with
  | zero => simp
  | succ j ih =>
    rw [Nat.add_comm j 1, ticks_add, ticks_succ, ticks_zero, Nat.zero_add, Nat.add_zero]
    have hs := h.step a
    by_cases h0 : c a = 0
    · rw [if_pos ((h.tick_iff a).mpr h0)]
      rw [if_pos h0] at hs
      rcases m with _ | m
      · omega
      · have := ih (a + 1) m
        rw [hs] at this
        rw [Nat.succ_mul, h0]
        omega
    · rw [if_neg (mt (h.tick_iff a).mp h0)]
      rw [if_neg h0] at hs
      have := ih (a + 1) m
      rw [hs] at this
      omega

lemma Train.ticks_at (h : Train P c tick) (a m : ℕ) : ticks tick a (c a + m * P) = m := by
  have h1 := (h.lt_ticks_iff a m (c a + m * P)).not.mpr (by omega)
  rcases m with _ | m
  · omega
  · have h2 := (h.lt_ticks_iff a m (c a + (m + 1) * P)).mpr (by
      have := h.pos; rw [Nat.succ_mul]; omega)
    omega

lemma Train.tick_at (h : Train P c tick) (a m : ℕ) : tick (a + (c a + m * P)) = true := by
  by_contra hn
  have h1 := h.ticks_at a m
  have h2 := (h.lt_ticks_iff a m (c a + m * P + 1)).mpr (by omega)
  rw [ticks_succ, if_neg hn] at h2
  omega

lemma Train.lt_succ (h : Train P c tick) (hc : c a ≤ P) : c (a + 1) < P := by
  have := h.step a
  have hP := h.pos
  split at this <;> omega

lemma Train.eq_of_ticks (h : Train P c tick) {j m : ℕ} (ht : tick (a + j) = true)
    (hm : ticks tick a j = m) : j = c a + m * P :=
  tick_unique ht (h.tick_at a m) (by rw [hm, h.ticks_at])

/-- Where the countdown has not just been started, its ticks are periodic. -/
lemma Train.tick_iff_mod (h : Train P c tick) (hc : c a < P) (k : ℕ) :
    tick (a + k) = true ↔ k % P = c a := by
  constructor
  · intro ht
    rw [h.eq_of_ticks ht rfl, Nat.add_mul_mod_self_right, Nat.mod_eq_of_lt hc]
  · intro hk
    have ht := h.tick_at a (k / P)
    rwa [← hk, Nat.mod_add_div'] at ht

lemma Train.eq_of_gap (h : Train P c tick) {i n : ℕ} (hi : tick i = true)
    (hgap : ticks tick (i + 1) n = 0) (hj : tick (i + 1 + n) = true) : n + 1 = P := by
  have hstep := h.step i
  rw [if_pos ((h.tick_iff i).mp hi)] at hstep
  have hn := h.eq_of_ticks hj hgap
  have hP := h.pos
  omega

lemma Train.ticks_period (h : Train P c tick) (hc : c a < P) : ticks tick a P = 1 := by
  have h0 := h.lt_ticks_iff a 0 P
  have h1 := h.lt_ticks_iff a 1 P
  omega

lemma Train.eq_of_once (h : Train P c tick) {n : ℕ} (hone : ∀ b, a ≤ b → ticks tick b n = 1) :
    n = P := by
  have ht : tick (a + c a) = true := by simpa using h.tick_at a 0
  have hc := (h.tick_iff _).mp ht
  have hstep := h.step (a + c a)
  rw [if_pos hc] at hstep
  -- from the tick on the window has no second one, from the clock after it on it has the next
  have h1 := h.lt_ticks_iff (a + c a) 1 n
  have h0 := h.lt_ticks_iff (a + c a + 1) 0 n
  rw [hone _ (by omega)] at h1 h0
  have hP := h.pos
  omega

/-- The clocks with `lo` ticks before them and less than `lo + d`. -/
lemma Train.ticks_slot (h : Train P c tick) {lo d j : ℕ} (hlo : 0 < lo) :
    lo ≤ ticks tick a j ∧ ticks tick a j < lo + d ↔
      c a + (lo - 1) * P < j ∧ j ≤ c a + (lo - 1) * P + d * P := by
  have h1 := h.lt_ticks_iff a (lo - 1) j
  have h2 := h.lt_ticks_iff a (lo - 1 + d) j
  rw [Nat.add_mul] at h2
  omega

/-- The clock that completes a count of `K` ticks. -/
def lastTick (P : ℕ) (c : ℕ → ℕ) (K a : ℕ) : ℕ := c a + (K - 1) * P

lemma Train.ticks_lt (h : Train P c tick) {K n : ℕ} (hK : 0 < K) (hn : n ≤ lastTick P c K a) :
    ticks tick a n < K := by
  have := h.lt_ticks_iff a (K - 1) n
  unfold lastTick at hn
  omega

lemma Train.lastTick_iff (h : Train P c tick) {K n : ℕ} (hK : 0 < K) :
    (tick (a + n) = true ∧ ticks tick a n + 1 = K) ↔ n = lastTick P c K a := by
  constructor
  · rintro ⟨ht, hn⟩
    exact h.eq_of_ticks ht (by omega)
  · rintro rfl
    refine ⟨h.tick_at a (K - 1), ?_⟩
    rw [lastTick, h.ticks_at]
    omega

/-- A clock between tick number `m` and the next one, seen from a train that is out of
phase: it has counted `m` ticks or one more. -/
lemma Train.ticks_window (h : Train P c tick) (hc : c a < P) {d m lo hi : ℕ} (hd : d < P)
    (hlo : lo ≤ m) (hhi : m + 2 ≤ hi) :
    lo ≤ ticks tick a (1 + (d + m * P)) ∧ ticks tick a (1 + (d + m * P)) < hi := by
  constructor
  · rcases lo with _ | lo
    · exact Nat.zero_le _
    · have hmul : (lo + 1) * P ≤ m * P := Nat.mul_le_mul_right P hlo
      refine (h.lt_ticks_iff a lo _).mpr ?_
      rw [Nat.succ_mul] at hmul
      omega
  · have hmul : (m + 1) * P ≤ (hi - 1) * P := Nat.mul_le_mul_right P (by omega)
    have := (h.lt_ticks_iff a (hi - 1) (1 + (d + m * P))).not.mpr (by
      rw [Nat.succ_mul] at hmul
      omega)
    omega

lemma Train.ticks_fresh (h : Train P c tick) (h0 : c 0 = P) (j : ℕ) :
    ticks tick 0 j = (j - 1) / P := by
  have hiff : ∀ m, m < ticks tick 0 j ↔ m < (j - 1) / P := fun m => by
    rw [h.lt_ticks_iff, h0, Nat.lt_div_iff_mul_lt h.pos]
    have := h.pos
    omega
  exact le_antisymm (le_of_forall_lt fun m hm => (hiff m).mp hm)
    (le_of_forall_lt fun m hm => (hiff m).mpr hm)

lemma Train.tick_fresh (h : Train P c tick) (h0 : c 0 = P) (j : ℕ) :
    tick j = true ↔ ∃ q, j = (q + 1) * P := by
  constructor
  · intro ht
    have hj := h.eq_of_ticks (a := 0) (j := j) (by simpa using ht) rfl
    exact ⟨ticks tick 0 j, by rw [Nat.succ_mul]; omega⟩
  · rintro ⟨q, rfl⟩
    have := h.tick_at 0 q
    rwa [h0, Nat.zero_add, Nat.add_comm P, ← Nat.succ_mul] at this

lemma add_one_mod {n : ℕ} (hn : 0 < n) (k : ℕ) :
    (k + 1) % n = if k % n + 1 = n then 0 else k % n + 1 := by
  have hlt := Nat.mod_lt k hn
  have he : k + 1 = n * (k / n) + (k % n + 1) := by
    have := Nat.div_add_mod k n
    omega
  rw [he, Nat.mul_add_mod]
  split
  · next h => rw [h, Nat.mod_self]
  · exact Nat.mod_eq_of_lt (by omega)

lemma add_one_mod_eq_iff {n : ℕ} (hn : 0 < n) (k : ℕ) : k % n + 1 = n ↔ n ∣ k + 1 := by
  have h := add_one_mod hn k
  rw [Nat.dvd_iff_mod_eq_zero, h]
  split
  · simp_all
  · simp_all

/-- A tick every `P` clocks, the first one at clock `φ`, is a countdown. -/
lemma train_of_periodic {φ : ℕ} (hφ : φ < P) (h : ∀ t, tick t = true ↔ t % P = φ) :
    Train P (fun t => if t % P ≤ φ then φ - t % P else P + φ - t % P) tick where
  pos := by omega
  tick_iff t := by
    have hlt := Nat.mod_lt t (show 0 < P by omega)
    rw [h]
    split <;> omega
  step t := by
    have hlt := Nat.mod_lt t (show 0 < P by omega)
    rw [add_one_mod (by omega)]
    split_ifs <;> omega

/-! ### Slots -/

def bound (dur : ℕ → ℕ) : ℕ → ℕ
  | 0 => 0
  | k + 1 => bound dur k + dur k

@[simp] lemma bound_zero (dur : ℕ → ℕ) : bound dur 0 = 0 := rfl

lemma bound_succ (dur : ℕ → ℕ) (k : ℕ) : bound dur (k + 1) = bound dur k + dur k := rfl

lemma bound_mono (dur : ℕ → ℕ) {i j : ℕ} (h : i ≤ j) : bound dur i ≤ bound dur j :=
  monotone_nat_of_le_succ (fun _ => Nat.le_add_right _ _) h

lemma exists_slot (dur : ℕ → ℕ) {K n : ℕ} (h : n < bound dur K) :
    ∃ k s, k < K ∧ s < dur k ∧ n = bound dur k + s := by
  induction K with
  | zero => simp at h
  | succ K ih =>
    rcases Nat.lt_or_ge n (bound dur K) with hlt | hge
    · obtain ⟨k, s, hk, hs, hn⟩ := ih hlt
      exact ⟨k, s, by omega, hs, hn⟩
    · rw [bound_succ] at h
      exact ⟨K, n - bound dur K, by omega, by omega, by omega⟩

/-- The last tick of all slots is the last one of the last slot. -/
lemma last_slot_iff {dur : ℕ → ℕ} {K k s : ℕ} (hpos : 0 < dur K) (hk : k < K + 1) (hs : s < dur k) :
    bound dur k + s + 1 = bound dur (K + 1) ↔ k = K ∧ s + 1 = dur k := by
  rw [bound_succ]
  constructor
  · intro he
    have hkK : k = K := by
      by_contra hne
      have hmono := bound_mono dur (show k + 1 ≤ K by omega)
      rw [bound_succ] at hmono
      omega
    subst hkK
    exact ⟨rfl, by omega⟩
  · rintro ⟨rfl, he⟩
    omega

/-- **The slot rule.** A machine that enters slot `0` at clock `a`, that keeps its place
on a clock without a tick and moves by one tick on a clock with one, is at every clock in
the slot the ticks since `a` put it in. -/
theorem slots_run {σ : Type*} {f : ℕ → σ} {dur : ℕ → ℕ} {K : ℕ} {I : ℕ → ℕ → σ → Prop}
    (hpos : ∀ k < K, 0 < dur k) (h0 : I 0 0 (f a))
    (hstep : ∀ j k s, k < K → s < dur k → ticks tick a j = bound dur k + s → I k s (f (a + j)) →
      if tick (a + j) = true then
        (s + 1 < dur k → I k (s + 1) (f (a + j + 1))) ∧
        (s + 1 = dur k → k + 1 < K → I (k + 1) 0 (f (a + j + 1)))
      else I k s (f (a + j + 1))) :
    ∀ j k s, k < K → s < dur k → ticks tick a j = bound dur k + s → I k s (f (a + j)) := by
  intro j
  induction j with
  | zero =>
    intro k s hk hs hn
    rw [ticks_zero] at hn
    have hk0 : k = 0 := by
      rcases k with _ | k
      · rfl
      · have := hpos 0 (by omega)
        have := bound_mono dur (show 1 ≤ k + 1 by omega)
        simp only [bound_succ, bound_zero] at this hn
        omega
    subst hk0
    have hs0 : s = 0 := by simp at hn; omega
    subst hs0
    exact h0
  | succ j ih =>
    intro k s hk hs hn
    rw [ticks_succ] at hn
    by_cases ht : tick (a + j) = true
    · rw [if_pos ht] at hn
      rcases s with _ | s
      · -- the tick ended the slot before
        rcases k with _ | k
        · simp at hn
        · have hd := hpos k (by omega)
          rw [bound_succ] at hn
          have hn' : ticks tick a j = bound dur k + (dur k - 1) := by omega
          have hprev := ih k (dur k - 1) (by omega) (by omega) hn'
          have hmove := hstep j k (dur k - 1) (by omega) (by omega) hn' hprev
          rw [if_pos ht] at hmove
          exact hmove.2 (by omega) hk
      · have hn' : ticks tick a j = bound dur k + s := by omega
        have hmove := hstep j k s hk (by omega) hn' (ih k s hk (by omega) hn')
        rw [if_pos ht] at hmove
        exact hmove.1 hs
    · rw [if_neg ht, Nat.add_zero] at hn
      have hmove := hstep j k s hk hs hn (ih k s hk hs hn)
      rw [if_neg ht] at hmove
      exact hmove

end Blastit.Lib.Ticks
