import Blastit.Rtl.RxFrame

/-!
A receiver that has lost its place in the stream.

Whatever a receiver is doing, the ticks of one frame on a high line bring it back to rest, and
at most one byte comes out of it on the way. From rest on all that it was is forgotten: two
receivers that rest deliver the same bytes on the same line.
-/

namespace Blastit.Rtl.UartRx

open Blastit.Lib.Clocked Blastit.Lib.Ticks Blastit.Rtl.UartFrame

variable {c : Settings} {x : ℕ → Bool} {k s n : ℕ} {st st' : State} {i : In}

/-! ### One clock in a slot -/

/-- The levels sampled in the slots to come do not matter. -/
lemma At.congr {x' : ℕ → Bool} (h : At c x k s st) (hx : ∀ j < k, x j = x' j) : At c x' k s st :=
  ⟨h.phase, h.sReg, h.nReg, fun j hj => (h.bits j hj).trans (hx _ (by unfold taken at hj; omega)),
    h.frame⟩

/-- What a clock does to the place of a receiver in its frame, whatever receiver stands there. -/
inductive Moves (c : Settings) (x : ℕ → Bool) (k s : ℕ) (i : In) : Prop
  | stays (ht : i.sTick = false) (h : ∀ st, At c x k s st → next c st i = st)
  | ends (ht : i.sTick = true) (hk : k = c.bits + 1) (hs : s + 1 = c.rxDur k)
    (h : ∀ st, At c x k s st → (next c st i).stateReg = .idle)
  | goes (x' : ℕ → Bool) (k' s' : ℕ) (ht : i.sTick = true) (hk : k' < c.bits + 2)
    (hs : s' < c.rxDur k') (hsum : bound c.rxDur k' + s' = bound c.rxDur k + s + 1)
    (hnot : ¬ (k = c.bits + 1 ∧ s + 1 = c.rxDur k))
    (h : ∀ st, At c x k s st → At c x' k' s' (next c st i))

/-- **The place moves by a tick, or the frame ends.** -/
lemma moves (hv : c.Valid) (x : ℕ → Bool) (hk : k < c.bits + 2) (hs : s < c.rxDur k) (i : In) :
    Moves c x k s i := by
  cases ht : i.sTick with
  | false => exact .stays ht fun st h => next_no_tick h hk ht
  | true =>
    rcases Nat.lt_or_ge (s + 1) (c.rxDur k) with hlt | hge
    · refine .goes x k (s + 1) ht hk hlt rfl (by omega) fun st h => ?_
      exact next_tick hv h hk ht hlt
    · have hend : s + 1 = c.rxDur k := by omega
      by_cases hlast : k = c.bits + 1
      · exact .ends ht hlast hend fun st h => (next_last hv h hlast ht hend).1
      · -- the level on the line is the one this slot has sampled
        refine .goes (Function.update x k i.rx) (k + 1) 0 ht (by omega) (hv.rxDur_pos _) ?_
          (fun h => hlast h.1) fun st h => ?_
        · rw [bound_succ]
          omega
        · have h' : At c (Function.update x k i.rx) k s st :=
            h.congr fun j hj => (Function.update_of_ne (Nat.ne_of_lt hj) _ _).symm
          exact next_slot hv h' (by omega) ht hend fun _ => (Function.update_self k i.rx x).symm

/-! ### Back to rest -/

/-- The receiver rests, or is in a frame with `n` ticks of it behind it at least. -/
inductive Behind (c : Settings) (n : ℕ) (st : State) : Prop
  | idle (h : st.stateReg = .idle)
  | slot (x : ℕ → Bool) (k s : ℕ) (hk : k < c.bits + 2) (hs : s < c.rxDur k)
    (hn : n ≤ bound c.rxDur k + s) (h : At c x k s st)

lemma Behind.mono (h : Behind c n st) {m : ℕ} (hm : m ≤ n) : Behind c m st := by
  cases h with
  | idle h => exact .idle h
  | slot x k s hk hs hn h => exact .slot x k s hk hs (hm.trans hn) h

lemma Behind.idle_of_le (h : Behind c n st)
    (hn : bound c.rxDur (c.bits + 2) ≤ n) : st.stateReg = .idle := by
  cases h with
  | idle h => exact h
  | slot x k s hk hs hle h =>
    have hnext : bound c.rxDur (k + 1) ≤ bound c.rxDur (c.bits + 2) := bound_mono _ (by omega)
    rw [bound_succ] at hnext
    omega

/-- **One clock**: a tick takes the receiver on, and only the end of the frame lets a byte
out. On a high line a receiver that rests goes on resting. -/
lemma Behind.next (hv : c.Valid) (h : Behind c n st) (i : In)
    (hidle : st.stateReg = .idle → i.rx = true) :
    Behind c (n + if i.sTick = true then 1 else 0) (UartRx.next c st i) ∧
      (rxDoneTick c st i = true →
        st.stateReg ≠ .idle ∧ (UartRx.next c st i).stateReg = .idle) := by
  cases h with
  | idle h =>
    rw [next_idle_high h (hidle h), not_rxDoneTick_idle h]
    exact ⟨.idle h, fun hd => absurd hd Bool.false_ne_true⟩
  | slot x k s hk hs hn h =>
    have hne : st.stateReg ≠ .idle := by
      rw [h.phase]
      rcases c.slot_cases 0 hk with ⟨-, hp, -⟩ | ⟨-, -, hp, -⟩ | ⟨-, -, -, hp, -⟩ | ⟨-, hp, -⟩ <;>
        simp [hp]
    have hdone := rxDoneTick_iff (i := i) hv h hk
    cases moves hv x hk hs i with
    | stays ht hst =>
      rw [hst st h, hdone]
      simp only [ht, Bool.false_eq_true, if_false, false_and, and_false, false_imp_iff, and_true]
      exact .slot x k s hk hs hn h
    | ends ht hk' hs' hst => exact ⟨.idle (hst st h), fun _ => ⟨hne, hst st h⟩⟩
    | goes x' k' s' ht hk' hs' hsum hnot hst =>
      refine ⟨.slot x' k' s' hk' hs' ?_ (hst st h), fun hd => ?_⟩
      · rw [if_pos ht]
        omega
      · have hend := hdone.mp hd
        exact absurd ⟨hend.1, hend.2.2⟩ hnot

/-- Whatever comes in on the line, a receiver is in its frame or rests. -/
lemma Behind.zero_next (hv : c.Valid) (h : Behind c 0 st) (i : In) :
    Behind c 0 (UartRx.next c st i) := by
  by_cases hlow : st.stateReg = .idle ∧ i.rx = false
  · have hat : At c (fun _ => false) 0 0 (UartRx.next c st i) := next_idle_low hlow.1 hlow.2
    exact .slot _ 0 0 (by omega) (hv.rxDur_pos 0) (Nat.zero_le _) hat
  · exact (h.next hv i fun hi => by simpa [hi] using hlow).1.mono (Nat.zero_le _)

/-! ### A pause -/

/-- The bytes that come out on the `n` clocks from clock `a` on. -/
abbrev dones (c : Settings) (s₀ : State) (ins : ℕ → In) (a n : ℕ) : ℕ :=
  ticks (fun t => rxDoneTick c (exec (next c) s₀ ins t) (ins t)) a n

section
variable {s₀ : State} {ins : ℕ → In} {a : ℕ}

lemma behind_run (hv : c.Valid) (h : Behind c 0 s₀) (ins : ℕ → In) (t : ℕ) :
    Behind c 0 (exec (next c) s₀ ins t) :=
  exec_inv_all h (fun _ i h => h.zero_next hv i) t

/-- **A pause on the line**: the receiver has moved on by the ticks of the pause, and one byte
has come out if it has come to rest in it. -/
lemma pause (hv : c.Valid) (h : Behind c 0 s₀)
    (hhigh : ∀ j < n, (ins (a + j)).rx = true) :
    Behind c (ticks (tickOf ins) a n) (exec (next c) s₀ ins (a + n)) ∧
      dones c s₀ ins a n ≤ (if (exec (next c) s₀ ins (a + n)).stateReg = .idle then 1 else 0) := by
  induction n with
  | zero => exact ⟨behind_run hv h ins a, by simp [dones]⟩
  | succ n ih =>
    obtain ⟨hbehind, hdones⟩ := ih fun j hj => hhigh j (by omega)
    obtain ⟨hnext, hdone⟩ := hbehind.next hv (ins (a + n)) fun _ => hhigh n (Nat.lt_succ_self n)
    rw [dones, ticks_succ, ticks_succ, ← Nat.add_assoc, exec_succ]
    refine ⟨hnext, ?_⟩
    by_cases hd : rxDoneTick c (exec (next c) s₀ ins (a + n)) (ins (a + n)) = true
    · obtain ⟨hne, hidle⟩ := hdone hd
      rw [if_neg hne] at hdones
      rw [if_pos hd, if_pos hidle]
      exact Nat.succ_le_succ hdones
    · rw [if_neg hd, Nat.add_zero]
      by_cases hidle : (exec (next c) s₀ ins (a + n)).stateReg = .idle
      · rw [next_idle_high hidle (hhigh n (Nat.lt_succ_self n))]
        exact hdones
      · rw [if_neg hidle] at hdones
        exact hdones.trans (Nat.zero_le _)

/-- **Back to rest**: a pause of the ticks of one frame brings any receiver to rest, and lets at
most one byte out of it. -/
theorem settles (hv : c.Valid) (h : Behind c 0 s₀) (hhigh : ∀ j < n, (ins (a + j)).rx = true)
    (hn : bound c.rxDur (c.bits + 2) ≤ ticks (tickOf ins) a n) :
    (exec (next c) s₀ ins (a + n)).stateReg = .idle ∧ dones c s₀ ins a n ≤ 1 := by
  obtain ⟨hbehind, hdones⟩ := pause hv h hhigh
  have hidle := hbehind.idle_of_le hn
  rw [if_pos hidle] at hdones
  exact ⟨hidle, hdones⟩

end

/-! ### What is forgotten -/

/-- Both receivers rest, or both are at the same place of a frame with the same levels. -/
inductive Alike (c : Settings) (st st' : State) : Prop
  | idle (h : st.stateReg = .idle) (h' : st'.stateReg = .idle)
  | slot (x : ℕ → Bool) (k s : ℕ) (hk : k < c.bits + 2) (hs : s < c.rxDur k) (h : At c x k s st)
    (h' : At c x k s st')

lemma At.dout_getLsbD (hv : c.Valid) (h : At c x (c.bits + 1) s st) {j : ℕ}
    (hj : j < c.dbit.toNat) : x (j + 1) = (dout c st).getLsbD j := by
  have htaken : taken c (c.bits + 1) = c.dbit.toNat := by
    have := c.dbit_le_bits
    unfold taken
    omega
  have hbit := h.bits j (htaken ▸ hj)
  rw [htaken] at hbit
  rw [← hbit, dout]
  rcases hv.dbit with hd | hd
  · have hdn : c.dbit.toNat = 7 := by rw [hd]; rfl
    rw [if_pos (by simp [hd]), BitVec.getLsbD_ushiftRight, hdn]
  · have hdn : c.dbit.toNat = 8 := by rw [hd]; rfl
    rw [if_neg (by simp [hd]), if_pos (by simp [hd]), hdn, Nat.sub_self, Nat.zero_add]

/-- The byte that comes out, if one does. -/
def delivers (c : Settings) (st : State) (i : In) : List (BitVec 8) :=
  if rxDoneTick c st i then [dout c st] else []

/-- **Receivers that are alike deliver the same, and stay alike.** -/
lemma Alike.next (hv : c.Valid) (h : Alike c st st') (i : In) :
    delivers c st i = delivers c st' i ∧
      Alike c (UartRx.next c st i) (UartRx.next c st' i) := by
  cases h with
  | idle h h' =>
    refine ⟨by simp [delivers, not_rxDoneTick_idle, h, h'], ?_⟩
    cases hrx : i.rx with
    | true =>
      rw [next_idle_high h hrx, next_idle_high h' hrx]
      exact .idle h h'
    | false =>
      exact .slot (fun _ => false) 0 0 (by omega) (hv.rxDur_pos 0) (next_idle_low h hrx)
        (next_idle_low h' hrx)
  | slot x k s hk hs h h' =>
    have hdone : rxDoneTick c st i = rxDoneTick c st' i := by
      rw [Bool.eq_iff_iff, rxDoneTick_iff hv h hk, rxDoneTick_iff hv h' hk]
    refine ⟨?_, ?_⟩
    · unfold delivers
      rw [← hdone]
      split
      · next hd =>
        obtain ⟨rfl, -, -⟩ := (rxDoneTick_iff hv h hk).mp hd
        have hbits := fun j hj => h.dout_getLsbD hv (j := j) hj
        rw [dout_eq hv h' hbits, ← dout_eq hv h hbits]
      · rfl
    · cases moves hv x hk hs i with
      | stays ht hst =>
        rw [hst st h, hst st' h']
        exact .slot x k s hk hs h h'
      | ends ht hk' hs' hst => exact .idle (hst st h) (hst st' h')
      | goes x' k' s' ht hk' hs' hsum hnot hst =>
        exact .slot x' k' s' hk' hs' (hst st h) (hst st' h')

end Blastit.Rtl.UartRx
