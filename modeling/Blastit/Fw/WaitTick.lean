import Blastit.Lib.Polls
import Blastit.Lib.Ticks
import Mathlib.Data.BitVec

/-!
`controller.c`: waiting for a number of ticks of the tick counter.

The counter is 24 bits wide and wraps; the end of the wait is computed at 32 bits and does
not. So the branch for the wrap, which asks whether the end lies below the start, is never
taken, and an end above the largest count is never reached.
-/

namespace Blastit.Fw.WaitTick

open Blastit.Lib.Polls Blastit.Lib.Ticks

/-- The tick counter as one call of `wait_tick` reads it: what the first read shows, and
whether the counter advances between a read and the next one. It never stops for good. -/
structure Counter where
  start : BitVec 24
  advances : ℕ → Bool
  live : ∀ n, ∃ k, n ≤ k ∧ advances k = true

/-- The increments between the first read and read `k`. -/
def Counter.increments (c : Counter) (k : ℕ) : ℕ := ticks c.advances 0 k

/-- What `tc_get_ticks(TC_TICK_COUNTER)` returns at read `k`. -/
def Counter.tcGetTicks (c : Counter) (k : ℕ) : BitVec 32 :=
  (c.start + BitVec.ofNat 24 (c.increments k)).setWidth 32

def tcMax : BitVec 32 := (1 <<< 24) - 1

/-- `wait_tick`: the number of reads it makes; `none` while it has not returned. -/
def waitTick (c : Counter) (n : BitVec 32) (fuel : ℕ) : Option ℕ :=
  if 0 < n then do
    let start := c.tcGetTicks 0
    let stop := start + n
    let k ←
      if stop < start then
        -- overflow wrap
        (poll (fun k => !decide (c.tcGetTicks k < tcMax)) fuel 1).map (· + 1)
      else some 1
    let k ← poll (fun k => !decide (c.tcGetTicks k < stop)) fuel k
    return k + 1
  else some 0

/-- The call returns, and between its first and its last read the counter advances `n`
times. -/
structure Exact (c : Counter) (n : BitVec 32) : Prop where
  returns : ∃ fuel reads, waitTick c n fuel = some reads
  increments : ∀ fuel reads, waitTick c n fuel = some reads → c.increments (reads - 1) = n.toNat

variable {c : Counter} {n : BitVec 32} {k : ℕ}

lemma toNat_tcGetTicks (c : Counter) (k : ℕ) :
    (c.tcGetTicks k).toNat = (c.start.toNat + c.increments k) % 2 ^ 24 := by
  have hlt : (c.start + BitVec.ofNat 24 (c.increments k)).toNat < 2 ^ 24 := BitVec.isLt _
  rw [Counter.tcGetTicks, BitVec.toNat_setWidth, Nat.mod_eq_of_lt (by omega), BitVec.toNat_add,
    BitVec.toNat_ofNat, Nat.add_mod_mod]

lemma toNat_stop (hn : n.toNat < 2 ^ 24) :
    (c.tcGetTicks 0 + n).toNat = c.start.toNat + n.toNat := by
  have hs := c.start.isLt
  rw [BitVec.toNat_add, toNat_tcGetTicks, show c.increments 0 = 0 from ticks_zero, Nat.add_zero,
    Nat.mod_eq_of_lt hs, Nat.mod_eq_of_lt (by omega)]

/-- The read that ends the wait is one at which the counter is not below the end. -/
def Reached (c : Counter) (n : BitVec 32) (k : ℕ) : Prop :=
  c.start.toNat + n.toNat ≤ (c.start.toNat + c.increments k) % 2 ^ 24

instance (c : Counter) (n : BitVec 32) (k : ℕ) : Decidable (Reached c n k) :=
  inferInstanceAs (Decidable (_ ≤ _))

/-- The wrap is not seen: the end is not below the start. -/
lemma waitTick_eq (hpos : 0 < n.toNat) (hn : n.toNat < 2 ^ 24) (fuel : ℕ) :
    waitTick c n fuel = (poll (fun k => decide (Reached c n k)) fuel 1).map (· + 1) := by
  have h0 : 0 < n := by rwa [BitVec.lt_def]
  have hwrap : ¬ c.tcGetTicks 0 + n < c.tcGetTicks 0 := by
    rw [BitVec.lt_def, toNat_stop hn, toNat_tcGetTicks, show c.increments 0 = 0 from ticks_zero,
      Nat.add_zero, Nat.mod_eq_of_lt c.start.isLt]
    omega
  have hread : (fun k => !decide (c.tcGetTicks k < c.tcGetTicks 0 + n)) =
      fun k => decide (Reached c n k) := by
    funext k
    rw [Bool.eq_iff_iff, Bool.not_eq_true', decide_eq_false_iff_not, decide_eq_true_eq,
      BitVec.lt_def, toNat_stop hn, toNat_tcGetTicks, Nat.not_lt]
    rfl
  simp only [waitTick, if_pos h0, if_neg hwrap, hread, Option.bind_eq_bind, Option.bind_some]
  cases poll (fun k => decide (Reached c n k)) fuel 1 <;> rfl

/-- An end the counter cannot show is not reached. -/
lemma not_reached (h : 2 ^ 24 ≤ c.start.toNat + n.toNat) : ¬ Reached c n k := by
  have := Nat.mod_lt (c.start.toNat + c.increments k) (Nat.two_pow_pos 24)
  unfold Reached
  omega

lemma reached_iff (h : c.start.toNat + n.toNat < 2 ^ 24) (hk : c.increments k ≤ n.toNat) :
    Reached c n k ↔ c.increments k = n.toNat := by
  rw [Reached, Nat.mod_eq_of_lt (by omega)]
  omega

lemma exists_reached (hpos : 0 < n.toNat) : ∃ j, 1 ≤ j ∧ c.increments j = n.toNat := by
  have hlive : ∀ n, ∃ k, n ≤ k ∧ c.advances (0 + k) = true := by simpa using c.live
  obtain ⟨j, hj⟩ := exists_ticks_eq hlive n.toNat
  refine ⟨j, ?_, hj⟩
  rcases j with _ | j
  · rw [ticks_zero] at hj
    omega
  · omega

/-- **`wait_tick` waits exactly as long as its end is a count the counter can show**: it
returns after `n` increments if the count of its first read and `n` make less than
`2 ^ 24`, and never returns otherwise. -/
theorem exact_iff (hpos : 0 < n.toNat) (hn : n.toNat < 2 ^ 24) :
    Exact c n ↔ c.start.toNat + n.toNat < 2 ^ 24 := by
  constructor
  · rintro ⟨⟨fuel, reads, hret⟩, -⟩
    by_contra hge
    rw [waitTick_eq hpos hn, Option.map_eq_some_iff] at hret
    obtain ⟨k, hk, -⟩ := hret
    exact not_reached (by omega) (of_decide_eq_true (first_of_poll hk).holds)
  · intro h
    obtain ⟨j, hj, hinc⟩ := exists_reached (c := c) hpos
    have hp : decide (Reached c n j) = true := decide_eq_true ((reached_iff h hinc.le).mpr hinc)
    refine ⟨?_, fun fuel reads hret => ?_⟩
    · obtain ⟨fuel, k, hk⟩ := (exists_poll_iff (p := fun k => decide (Reached c n k))).mpr ⟨j, hj, hp⟩
      exact ⟨fuel, k + 1, by rw [waitTick_eq hpos hn, hk]; rfl⟩
    · rw [waitTick_eq hpos hn, Option.map_eq_some_iff] at hret
      obtain ⟨k, hk, rfl⟩ := hret
      have hf := first_of_poll hk
      -- the read that ends the loop comes no later than the one after the last increment
      have hle : c.increments k ≤ n.toNat := hinc ▸ ticks_mono (hf.le_of_holds hj hp)
      exact (reached_iff h hle).mp (of_decide_eq_true hf.holds)

/-- A counter that advances between any two reads. -/
def steady (start : BitVec 24) : Counter := ⟨start, fun _ => true, fun n => ⟨n, le_rfl, rfl⟩⟩

theorem exact_one_tick : Exact (steady 0) 1 ↔ (0 : BitVec 24).toNat + (1 : BitVec 32).toNat < 2 ^ 24 :=
  exact_iff (by decide) (by decide)

/-- One tick from the largest count takes for ever: the counter wraps, the end does not. -/
theorem not_exact_at_wrap : (steady 0xFFFFFF).start.toNat = 2 ^ 24 - 1 ∧
    (∀ fuel, waitTick (steady 0xFFFFFF) 1 fuel = none) ∧ ¬ Exact (steady 0xFFFFFF) 1 := by
  have hnever : ∀ fuel, waitTick (steady 0xFFFFFF) 1 fuel = none := by
    intro fuel
    rw [waitTick_eq (by decide) (by decide), Option.map_eq_none_iff]
    cases hp : poll (fun k => decide (Reached (steady 0xFFFFFF) 1 k)) fuel 1 with
    | none => rfl
    | some k => exact (not_reached (by decide) (of_decide_eq_true (first_of_poll hp).holds)).elim
  refine ⟨rfl, hnever, fun h => ?_⟩
  obtain ⟨fuel, reads, hret⟩ := h.returns
  rw [hnever] at hret
  cases hret

end Blastit.Fw.WaitTick
