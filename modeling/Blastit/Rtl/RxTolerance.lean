import Blastit.Rtl.ModMCounter
import Blastit.Rtl.RxFrame

/-!
How far the clocks of a sender and the receiver may differ.

The line changes every `L` clocks and the receiver ticks every `P`; it samples a slot on the
tick that ends it, at a clock that depends on the phase of the ticks by less than a period. So a
frame is received if each of these windows lies within its bit.
-/

namespace Blastit.Rtl.UartRx

open Blastit.Lib.Clocked Blastit.Lib.Ticks Blastit.Rtl.UartFrame

/-- The windows in which a receiver with a tick every `P` clocks samples the bits lie within
them, if these last `L` clocks each. -/
structure Tolerates (c : Settings) (P L : ℕ) : Prop where
  early : ∀ i < c.bits, L * (i + 1) ≤ (c.half - 1 + c.osTick.toNat * (i + 1)) * P + 1
  late : ∀ i < c.bits, (c.half + c.osTick.toNat * (i + 1)) * P < L * (i + 2)
  stop : L * (c.bits + 1) ≤
    (c.half - 1 + c.osTick.toNat * c.bits + c.sbTick.toNat) * P + 1

variable {c : Settings} {P L φ : ℕ} {byte : BitVec 8} {parity : Bool} {s : State} {ins : ℕ → In}

lemma Tolerates.bit (h : Tolerates c P L) (hφ : φ < P) {k : ℕ} (h1 : 1 ≤ k) (hk : k ≤ c.bits) :
    (φ + (bound c.rxDur (k + 1) - 1) * P + 1) / L = k := by
  obtain ⟨i, rfl⟩ := Nat.exists_eq_add_of_le' h1
  have hearly := h.early i (by omega)
  have hlate := h.late i (by omega)
  have hhalf := c.half_pos
  have hbound : bound c.rxDur (i + 1 + 1) - 1 = c.half - 1 + c.osTick.toNat * (i + 1) := by
    rw [Settings.bound_rxDur hk, Nat.mul_comm]
    omega
  have hlast : (c.half + c.osTick.toNat * (i + 1)) * P =
      (c.half - 1 + c.osTick.toNat * (i + 1)) * P + P := by
    rw [← Nat.succ_mul]
    congr 1
    omega
  rw [hbound]
  exact Nat.div_eq_of_lt_le (by rw [Nat.mul_comm (i + 1)]; omega)
    (by rw [show i + 1 + 1 = i + 2 from rfl, Nat.mul_comm (i + 2)]; omega)

lemma Tolerates.high (h : Tolerates c P L) (hL : 0 < L) {t : ℕ}
    (ht : φ + (bound c.rxDur (c.bits + 2) - 1) * P + 1 ≤ t) : c.bits < t / L := by
  have hstop := h.stop
  have hhalf := c.half_pos
  have hbound : bound c.rxDur (c.bits + 2) - 1 =
      c.half - 1 + c.osTick.toNat * c.bits + c.sbTick.toNat := by
    rw [Settings.bound_rxDur_last, Nat.mul_comm]
    omega
  rw [hbound] at ht
  refine (Nat.le_div_iff_mul_le hL).mpr ?_
  show (c.bits + 1) * L ≤ t
  rw [Nat.mul_comm]
  omega

lemma Tolerates.pos (hv : c.Valid) (h : Tolerates c P L) : 0 < L := by
  have hbits := c.dbit_le_bits
  have hdbit := hv.dbit_toNat
  have hlate := h.late 0 (by omega)
  exact Nat.pos_of_ne_zero fun hL => by simp [hL] at hlate

/-- Once idle, the receiver stays as it is while the line is high. -/
lemma exec_idle {n : ℕ} (hidle : (exec (next c) s ins n).stateReg = .idle)
    (hhigh : ∀ t, n ≤ t → (ins t).rx = true) {t : ℕ} (ht : n ≤ t) :
    exec (next c) s ins t = exec (next c) s ins n := by
  induction t, ht using Nat.le_induction with
  | base => rfl
  | succ t ht ih => rw [exec_succ, ih, next_idle_high hidle (hhigh t ht)]

/-- The clocks from the start bit to the last tick of the frame. -/
def lastAt (c : Settings) (P φ : ℕ) : ℕ := φ + (bound c.rxDur (c.bits + 2) - 1) * P

section
variable {cnt : ℕ → ℕ} (hv : c.Valid) (h : Tolerates c P L) (hφ : φ < P)
  (htrain : Train P cnt (tickOf ins)) (h0 : cnt 0 = φ) (hstart : At c (c.level byte parity) 0 0 s)
  (hline : ∀ k, (ins k).rx = c.level byte parity ((k + 1) / L))

include hv h hφ htrain h0 hstart hline

/-- From the start bit on the receiver samples the levels of the frame. -/
lemma tolerates_run (j k r : ℕ) (hk : k < c.bits + 2) (hr : r < c.rxDur k)
    (hj : ticks (tickOf ins) 0 j = bound c.rxDur k + r) :
    At c (c.level byte parity) k r (exec (next c) s ins j) := by
  rw [← Nat.zero_add j]
  refine frame_run hv hstart (fun j k hk1 hk ht hn => ?_) j k r hk hr hj
  · have hclock := htrain.eq_of_ticks ht (Nat.eq_sub_of_add_eq hn)
    rw [h0] at hclock
    rw [Nat.zero_add, hline, hclock]
    rcases Nat.lt_or_ge c.bits k with hlt | hle
    · have hlast : k = c.bits + 1 := by omega
      subst hlast
      rw [Settings.level_of_lt hlt, Settings.level_of_lt (h.high (h.pos hv) (Nat.le_refl _))]
    · rw [h.bit hφ hk1 hle]

/-- It ends the frame on one clock, with the data bits, and stays idle after it. -/
lemma tolerates_end : (∀ t, rxDoneTick c (exec (next c) s ins t) (ins t) = true ↔
      t = lastAt c P φ) ∧
    dout c (exec (next c) s ins (lastAt c P φ)) = c.lowBits byte ∧
    ∀ t, lastAt c P φ ≤ t → eFrame (exec (next c) s ins t) = false := by
  have hrun := tolerates_run hv h hφ htrain h0 hstart hline
  have hpos : 0 < bound c.rxDur (c.bits + 2) := by
    have := hv.rxDur_pos (c.bits + 1)
    rw [bound_succ]
    omega
  have hlast : lastTick P cnt (bound c.rxDur (c.bits + 2)) 0 = lastAt c P φ := by
    rw [lastTick, h0, lastAt]
  obtain ⟨htick, hticks⟩ := (htrain.lastTick_iff (a := 0) hpos).mpr rfl
  rw [hlast, Nat.zero_add] at htick
  rw [hlast] at hticks
  have hrun' : ∀ j k r, k < c.bits + 2 → r < c.rxDur k →
      ticks (tickOf ins) 0 j = bound c.rxDur k + r →
      At c (c.level byte parity) k r (exec (next c) s ins (0 + j)) := by
    simpa only [Nat.zero_add] using hrun
  have hhigh : ∀ t, lastAt c P φ ≤ t → (ins t).rx = true := fun t ht => by
    have hlt : c.bits < (t + 1) / L := h.high (h.pos hv) (Nat.succ_le_succ ht)
    rw [hline, Settings.level_of_lt hlt]
  have hend := frame_end hv (hrun' _) (by rwa [Nat.zero_add]) hticks
  simp only [Nat.zero_add] at hend
  obtain ⟨hidle, hframe⟩ := hend
  have hafter : ∀ t, lastAt c P φ + 1 ≤ t →
      exec (next c) s ins t = exec (next c) s ins (lastAt c P φ + 1) := fun t ht =>
    exec_idle hidle (fun u hu => hhigh u (by omega)) ht
  refine ⟨fun t => ?_, ?_, fun t ht => ?_⟩
  · rcases Nat.lt_or_ge (lastAt c P φ) t with hlt | hle
    · rw [hafter t hlt, not_rxDoneTick_idle hidle]
      exact iff_of_false Bool.false_ne_true (by omega)
    · have hdone := rxDoneTick_frame hv (hrun' t)
        (htrain.ticks_lt (a := 0) hpos (by rwa [hlast]))
      rw [Nat.zero_add] at hdone
      have hiff := htrain.lastTick_iff (a := 0) (n := t) hpos
      rw [hlast, Nat.zero_add] at hiff
      rw [hdone, hiff]
  · rw [← Nat.zero_add (lastAt c P φ)]
    refine frame_dout hv (hrun' _) hticks fun i hi => ?_
    rw [Settings.level, if_neg (by omega), if_pos (Nat.succ_le_of_lt hi), Nat.add_sub_cancel]
  · rcases Nat.lt_or_eq_of_le ht with hlt | rfl
    · rw [hafter t hlt, eFrame, hframe, hhigh _ (Nat.le_refl _)]
      rfl
    · have hstop := frame_stop hv (hrun' _) hticks
      rw [Nat.zero_add] at hstop
      exact hstop.frame (by omega)

end

/-- **The tolerance of the receiver**: with a tick every `P` clocks, at any phase, and bits of
`L` clocks each, a frame that begins while the receiver is idle is received, if the windows lie
within the bits. Clock 0 is that of the falling edge, on which ticks do not matter. -/
theorem tolerance (hv : c.Valid) (h : Tolerates c P L) (hφ : φ < P)
    (htick : ∀ k, (ins (k + 1)).sTick = true ↔ k % P = φ) (hidle : s.stateReg = .idle)
    (hline : ∀ k, (ins k).rx = c.level byte parity (k / L)) :
    ∃ n, (∀ t, rxDoneTick c (exec (next c) s ins t) (ins t) = true ↔ t = n) ∧
      dout c (exec (next c) s ins n) = c.lowBits byte ∧
      ∀ t, n ≤ t → eFrame (exec (next c) s ins t) = false := by
  have hlow : (ins 0).rx = false := by rw [hline, Nat.zero_div, Settings.level, if_pos rfl]
  have hexec : ∀ j, exec (next c) s ins (j + 1) =
      exec (next c) (next c s (ins 0)) (fun k => ins (k + 1)) j := by
    intro j
    rw [Nat.add_comm, exec_add]
    simp only [Nat.add_comm 1]
    rfl
  have htrain : Train P (fun t => if t % P ≤ φ then φ - t % P else P + φ - t % P)
      (tickOf fun k => ins (k + 1)) := train_of_periodic hφ htick
  obtain ⟨hdone, hdout, hframe⟩ := tolerates_end hv h hφ htrain (by simp)
    (next_idle_low hidle hlow) fun k => hline (k + 1)
  refine ⟨lastAt c P φ + 1, fun t => ?_, ?_, fun t ht => ?_⟩
  · cases t with
    | zero => exact iff_of_false (by simp [not_rxDoneTick_idle hidle]) (by omega)
    | succ t => rw [hexec, hdone, Nat.add_right_cancel_iff]
  · rw [hexec]
    exact hdout
  · obtain ⟨t, rfl⟩ := Nat.exists_eq_add_of_le' (show 1 ≤ t by omega)
    rw [hexec]
    exact hframe t (by omega)

def sixteenTicks : Settings := ⟨8, 1, 16, 16⟩

/-- A frame of 65 clocks a bit, on the ticks of a counter of period four. -/
def slowFrame (k : ℕ) : In where
  rx := sixteenTicks.level 0x55 false (k / 65)
  sTick := ModMCounter.maxTick (exec ModMCounter.next (ModMCounter.reset : ModMCounter.State 8)
    (fun _ => 3) k)

theorem tolerance_slowFrame :
    ∃ n, (∀ t, rxDoneTick sixteenTicks (exec (next sixteenTicks) reset slowFrame t) (slowFrame t) =
        true ↔ t = n) ∧
      dout sixteenTicks (exec (next sixteenTicks) reset slowFrame n) = 0x55 ∧
      ∀ t, n ≤ t → eFrame (exec (next sixteenTicks) reset slowFrame t) = false := by
  have htol : Tolerates sixteenTicks 4 65 := ⟨by decide, by decide, by decide⟩
  obtain ⟨φ, hφ, htick⟩ := ModMCounter.periodic (ModMCounter.phase_reset (3 : BitVec 8))
  have hline : ∀ k, (slowFrame k).rx = sixteenTicks.level 0x55 false (k / 65) := fun _ => rfl
  exact tolerance ⟨Or.inr rfl, by decide, by decide⟩ htol hφ htick rfl hline

end Blastit.Rtl.UartRx
