import Blastit.Lib.Scan
import Blastit.Rtl.LedMatrix
import Blastit.Rtl.SsegArray

/-!
The scans of `sseg_array` and `led_matrix`, at any parameters and with LED ticks at any clocks.

Both compare the index after its increment with the number of positions. An index that can hold
just these wraps to zero before the compare sees it: it starts over, or its neighbour does not
move on, but `done_tick` is never raised. The ranges `[W-1:0]` of the indices are not empty.
-/

namespace Blastit.Rtl

open Blastit.Lib.Clocked Blastit.Lib.Sizing Blastit.Lib.Ticks

lemma ModMCounter.ticks_on {M : ℕ} (n : ℕ) :
    ∃ j, n ≤ j ∧ maxTick (exec next (reset : State M) (fun _ => 0) j) = true := by
  have htrain := train (phase_reset (0 : BitVec M))
  exact ⟨_, Nat.le_add_right n _, htrain.tick_at n 0⟩

/-! ### The digits -/

namespace SsegArray

variable {p : Params}

/-- The scan of a run from reset: digit `k` is selected while the index is `k`. -/
def Covers (s : State p) (ins : ℕ → In p) : Prop :=
  Lib.Scan.Covers p.ssegN (fun t => ledTick (run s ins t)) (fun t => doneTick (run s ins t))
    fun k t => (run s ins t).oeIReg.toNat = k

/-- The index reaches the number of the digits before it wraps. -/
def Params.Room (p : Params) : Prop := 0 < p.ssegN ∧ p.ssegN < 2 ^ p.ssegBits

lemma doneTick_iff {s : State p} :
    doneTick s = true ↔ ledTick s = true ∧ (s.oeIReg + 1).toNat = p.ssegN := by
  unfold doneTick advance
  rw [Bool.and_eq_true]
  split <;> simp_all

lemma tickCounter_run (s : State p) (ins : ℕ → In p) (t : ℕ) : (run s ins t).tickCounter =
    exec ModMCounter.next ModMCounter.reset (fun u => (ins u).ledPeriod) t :=
  exec_part (fun _ => rfl) t

lemma scans_run_index (hp : p.Room) (s : State p) (ins : ℕ → In p) :
    Lib.Scan.Scans p.ssegN (fun t => ledTick (run s ins t)) (fun t => doneTick (run s ins t))
      fun t => (run s ins t).oeIReg.toNat := by
  have hscan : ∀ t, (run s ins t).oeIReg.toNat < p.ssegN :=
    scans_run s ins ⟨hp.1, hp.2.le⟩
  have hsucc : ∀ t, ((run s ins t).oeIReg + 1).toNat = (run s ins t).oeIReg.toNat + 1 := by
    intro t
    have hlt := hscan t
    have hroom := hp.2
    exact toNat_succ (by omega)
  refine ⟨hscan, fun t => ?_, fun t => ?_⟩
  · rw [run, exec_succ]
    simp only [next, advance, hsucc]
    split_ifs
    · simp
    · exact hsucc t
    · rfl
  · rw [doneTick_iff, hsucc]

theorem covers_iff : (∀ s (ins : ℕ → In p), Covers s ins) ↔ p.Room := by
  constructor
  · intro h
    let s : State p := ⟨fun _ => 0, 0, Pwm.reset, ModMCounter.reset⟩
    let ins : ℕ → In p := fun _ => ⟨false, 0, 0, 0, ⟨false, false, false, 0⟩⟩
    have hcov : Covers s ins := h s ins
    obtain ⟨t, ht⟩ := hcov.exists_done fun n => by
      simp only [ledTick, tickCounter_run]
      exact ModMCounter.ticks_on n
    have hlt := ((run s ins t).oeIReg + 1).isLt
    rw [(doneTick_iff.mp ht).2] at hlt
    exact ⟨hcov.nonempty, hlt⟩
  · intro hp s ins
    exact (scans_run_index hp s ins).covers fun _ _ _ => Iff.rfl

end SsegArray

/-! ### The matrix -/

namespace LedMatrix

variable {p : Params}

/-- The scan of a run from reset: position `k` is selected while column, row and address are
those of `k`. -/
def Covers (s : State p) (inp : ℕ → In p) : Prop :=
  Lib.Scan.Covers (p.ledsN * p.ledsM) (fun t => ledTick (exec next (reset s) inp t))
    (fun t => doneTick (exec next (reset s) inp t) (inp t)) fun k t =>
      (exec next (reset s) inp t).nIReg.toNat = k % p.ledsN ∧
        (exec next (reset s) inp t).mIReg.toNat = k / p.ledsN ∧
        (exec next (reset s) inp t).addrIReg.toNat = k

/-- The reset stays low. -/
def Running (inp : ℕ → In p) : Prop := ∀ t, (inp t).reset = false

variable {s : State p} {i : In p} {inp : ℕ → In p}

lemma visible_running (hi : i.reset = false) : visible s i = s := by simp [visible, hi]

/-- `done_tick` needs both compares. -/
lemma compares_of_doneTick (h : doneTick s i = true) :
    ((visible s i).nIReg + 1).toNat = p.ledsN ∧ ((visible s i).mIReg + 1).toNat = p.ledsM := by
  simp only [doneTick, advance, Bool.and_eq_true] at h
  obtain ⟨-, hdone⟩ := h
  split_ifs at hdone with hn hm
  exact ⟨hn, hm⟩

lemma tickCounter_run (hinp : Running inp) (t : ℕ) : (exec next (reset s) inp t).tickCounter =
    exec ModMCounter.next ModMCounter.reset (fun u => (inp u).ledPeriod) t :=
  exec_part (f := State.tickCounter) (fun t => by
    rw [exec_succ]
    simp only [next, hinp t, Bool.false_eq_true, if_false]) t

lemma scan_exec (hp : p.Room) (s : State p) (inp : ℕ → In p) (t : ℕ) :
    Scan (exec next (reset s) inp t) :=
  exec_inv_all (scan_reset hp s) (fun _ i h => h.next hp i) t

lemma scans_exec_addr (hp : p.Room) (hinp : Running inp) :
    Lib.Scan.Scans (p.ledsN * p.ledsM) (fun t => ledTick (exec next (reset s) inp t))
      (fun t => doneTick (exec next (reset s) inp t) (inp t))
      fun t => (exec next (reset s) inp t).addrIReg.toNat := by
  refine ⟨fun t => (scan_exec hp s inp t).addr_lt, fun t => ?_, fun t => ?_⟩
  · obtain ⟨-, -, -, hadv, -⟩ := (scan_exec hp s inp t).advance hp
    rw [exec_succ]
    simp only [next, hinp t, Bool.false_eq_true, if_false]
    split
    · exact hadv
    · rfl
  · obtain ⟨-, -, -, -, hdone⟩ := (scan_exec hp s inp t).advance hp
    rw [doneTick, visible_running (hinp t), Bool.and_eq_true, hdone]

lemma Scan.position_iff {k : ℕ} (h : Scan s) :
    (s.nIReg.toNat = k % p.ledsN ∧ s.mIReg.toNat = k / p.ledsN ∧ s.addrIReg.toNat = k) ↔
      s.addrIReg.toNat = k := by
  refine ⟨fun hk => hk.2.2, ?_⟩
  rintro rfl
  have hn := h.n_lt
  have hpos : 0 < p.ledsN := by omega
  rw [h.addr, Nat.mul_comm, Nat.mul_add_mod, Nat.mod_eq_of_lt hn, Nat.mul_add_div hpos,
    Nat.div_eq_of_lt hn]
  exact ⟨rfl, rfl, rfl⟩

theorem covers_iff : (∀ s (inp : ℕ → In p), Running inp → Covers s inp) ↔ p.Room := by
  constructor
  · intro h
    let s : State p := ⟨fun _ => false, 0, 0, 0, Pwm.reset, ModMCounter.reset⟩
    let inp : ℕ → In p := fun _ => ⟨false, 0, 0, false, false, 0⟩
    have hinp : Running inp := fun _ => rfl
    have hcov : Covers s inp := h s inp hinp
    obtain ⟨t, ht⟩ := hcov.exists_done fun n => by
      simp only [ledTick, tickCounter_run hinp]
      exact ModMCounter.ticks_on n
    obtain ⟨hn, hm⟩ := compares_of_doneTick ht
    have hnlt := ((visible (exec next (reset s) inp t) (inp t)).nIReg + 1).isLt
    have hmlt := ((visible (exec next (reset s) inp t) (inp t)).mIReg + 1).isLt
    rw [hn] at hnlt
    rw [hm] at hmlt
    have hpos : 0 < p.ledsN * p.ledsM := hcov.nonempty
    exact ⟨Nat.pos_of_mul_pos_right hpos, Nat.pos_of_mul_pos_left hpos, hnlt, hmlt⟩
  · intro hp s inp hinp
    exact (scans_exec_addr hp hinp).covers fun _ _ t => (scan_exec hp s inp t).position_iff

end LedMatrix

/-- **Both multiplexers cover their positions exactly if every index can hold one more than it
is to reach.** -/
theorem scan_covers_iff (p : SsegArray.Params) (q : LedMatrix.Params) :
    ((∀ s (ins : ℕ → SsegArray.In p), SsegArray.Covers s ins) ↔ p.Room) ∧
      ((∀ s (inp : ℕ → LedMatrix.In q), LedMatrix.Running inp → LedMatrix.Covers s inp) ↔ q.Room) :=
  ⟨SsegArray.covers_iff, LedMatrix.covers_iff⟩

/-- The defaults of `led_matrix`, and the digits of `blastit_demo_marquee.v`. -/
theorem not_covers_boundary :
    (¬ ∀ s (inp : ℕ → LedMatrix.In ⟨4, 2, 2, 2, 12, 24⟩),
      LedMatrix.Running inp → LedMatrix.Covers s inp) ∧
    ¬ ∀ s (ins : ℕ → SsegArray.In ⟨4, 16, 8, 24⟩), SsegArray.Covers s ins := by
  constructor
  · intro h
    exact absurd (LedMatrix.covers_iff.mp h).n (by decide)
  · intro h
    exact absurd (SsegArray.covers_iff.mp h).2 (by decide)

end Blastit.Rtl
