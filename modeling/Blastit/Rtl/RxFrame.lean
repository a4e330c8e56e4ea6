import Blastit.Rtl.UartRx

/-!
A whole frame on the receiver, from the clock it enters the start bit, on any tick schedule and
any line: where it stands after any number of ticks, and what the last tick does.
-/

namespace Blastit.Rtl.UartRx

open Blastit.Lib.Clocked Blastit.Lib.Ticks Blastit.Rtl.UartFrame

variable {c : Settings} {s₀ : State} {ins : ℕ → In} {x : ℕ → Bool} {S j : ℕ}

abbrev tickOf (ins : ℕ → In) (t : ℕ) : Bool := (ins t).sTick

/-- **The receiver goes through the slots of a frame**, sampling the line at the end of
each. -/
theorem frame_run (hv : c.Valid) (h : At c x 0 0 (exec (next c) s₀ ins S))
    (hx : ∀ j k, 1 ≤ k → k < c.bits + 2 → tickOf ins (S + j) = true →
      ticks (tickOf ins) S j + 1 = bound c.rxDur (k + 1) → (ins (S + j)).rx = x k) :
    ∀ j k s, k < c.bits + 2 → s < c.rxDur k → ticks (tickOf ins) S j = bound c.rxDur k + s →
      At c x k s (exec (next c) s₀ ins (S + j)) := by
  refine slots_run (f := exec (next c) s₀ ins) (I := At c x) (fun k _ => hv.rxDur_pos k) h
    fun j k s hk hs hn hS => ?_
  split
  · next ht =>
    constructor
    · intro hlt
      exact next_tick hv hS hk ht hlt
    · intro he hk'
      refine next_slot hv hS hk' ht he fun hk1 => ?_
      exact hx j k hk1 hk ht (by rw [hn, bound_succ]; omega)
  · next ht =>
    have ht' : (ins (S + j)).sTick = false := by simpa using ht
    rw [exec_succ, next_no_tick hS hk ht']
    exact hS

section
variable (hv : c.Valid)
  (hrun : ∀ k s, k < c.bits + 2 → s < c.rxDur k → ticks (tickOf ins) S j = bound c.rxDur k + s →
    At c x k s (exec (next c) s₀ ins (S + j)))

include hv hrun

lemma rxDoneTick_frame (hj : ticks (tickOf ins) S j < bound c.rxDur (c.bits + 2)) :
    rxDoneTick c (exec (next c) s₀ ins (S + j)) (ins (S + j)) = true ↔
      tickOf ins (S + j) = true ∧
        ticks (tickOf ins) S j + 1 = bound c.rxDur (c.bits + 2) := by
  obtain ⟨k, s, hk, hs, hn⟩ := exists_slot c.rxDur hj
  rw [rxDoneTick_iff hv (hrun k s hk hs hn) hk, hn,
    last_slot_iff (hv.rxDur_pos (c.bits + 1)) hk hs]
  exact and_left_comm

lemma frame_stop (hj : ticks (tickOf ins) S j + 1 = bound c.rxDur (c.bits + 2)) :
    At c x (c.bits + 1) (c.rxDur (c.bits + 1) - 1) (exec (next c) s₀ ins (S + j)) := by
  have hp := hv.rxDur_pos (c.bits + 1)
  rw [bound_succ _ (c.bits + 1)] at hj
  exact hrun _ _ (by omega) (by omega) (by omega)

/-- **The last tick of the frame** samples the line into `e_frame` and leaves the receiver
idle. -/
theorem frame_end (ht : tickOf ins (S + j) = true)
    (hj : ticks (tickOf ins) S j + 1 = bound c.rxDur (c.bits + 2)) :
    (exec (next c) s₀ ins (S + j + 1)).stateReg = .idle ∧
      (exec (next c) s₀ ins (S + j + 1)).eFrameReg = !(ins (S + j)).rx := by
  have hp := hv.rxDur_pos (c.bits + 1)
  exact next_last hv (frame_stop hv hrun hj) rfl ht (by omega)

lemma frame_dout {byte : BitVec 8}
    (hj : ticks (tickOf ins) S j + 1 = bound c.rxDur (c.bits + 2))
    (hx : ∀ i < c.dbit.toNat, x (i + 1) = byte.getLsbD i) :
    dout c (exec (next c) s₀ ins (S + j)) = c.lowBits byte :=
  dout_eq hv (frame_stop hv hrun hj) hx

end

end Blastit.Rtl.UartRx
