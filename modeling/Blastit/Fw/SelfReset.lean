import Blastit.Rtl.ResetController

/-!
`rc_reset`: the firmware's last call, which asks `rc1` to hold the processor in reset.

`rc1_reset` goes to the processor's own reset controller (`altera_reset_controller` as the
system is generated, its debug input low), which resets the register that drives `rc1` a
few clocks later; the start it holds is gone by the time `rc1` lets go.
-/

namespace Blastit.Fw.SelfReset

open Blastit.Lib.Clocked Blastit.Rtl

/-! ### The processor's reset -/

/-- The registers of `altera_reset_controller` on the way to `reset_out`. -/
structure McuReset where
  syncChain : BitVec 2
  syncChainOut : Bool
  intChain : BitVec 5
  rstChain : BitVec 4
  rSyncRst : Bool
  deriving DecidableEq

namespace McuReset

def released : McuReset := ⟨0, false, 0, 0, false⟩

def asserted : McuReset := ⟨3, true, 31, 15, true⟩

def resetOut (s : McuReset) : Bool := s.rSyncRst

def next (s : McuReset) (resetIn : Bool) : McuReset where
  syncChain := if resetIn then 3 else s.syncChain >>> 1
  syncChainOut := if resetIn then true else s.syncChain.getLsbD 0
  intChain := (s.intChain <<< 1) ||| (if resetIn || s.syncChainOut then 1 else 0)
  rstChain := if s.intChain.getLsbD 2 then 15 else s.rstChain >>> 1
  rSyncRst := s.intChain.getLsbD 4 || (s.rstChain.getLsbD 1 && s.rSyncRst)

lemma exec_true {k : ℕ} (hk : 6 ≤ k) : exec next released (fun _ => true) k = asserted := by
  induction k, hk using Nat.le_induction with
  | base => rfl
  | succ k _ ih =>
    rw [exec_succ, ih]
    rfl

end McuReset

/-! ### The board -/

/-- `rc1`, the processor's reset, and the register behind `rc1_control`. -/
structure Board where
  rc1 : ResetController.State 24
  mcu : McuReset
  rc1Control : BitVec 25

namespace Board

def rc1Reset (b : Board) : Bool := ResetController.en b.rc1

/-- The register is reset with the processor, asynchronously. -/
def control (b : Board) : BitVec 25 := if b.mcu.resetOut then 0 else b.rc1Control

/-- `{ rc1_start, rc1_m }`. -/
def rc1In (b : Board) : ResetController.In 24 := ⟨b.control.getLsbD 24, b.control.setWidth 24⟩

def next (b : Board) : Board where
  rc1 := ResetController.next b.rc1 b.rc1In
  mcu := McuReset.next b.mcu b.rc1Reset
  rc1Control := b.control

/-- The controller idle, the processor running. -/
structure Idle (b : Board) : Prop where
  rc1 : b.rc1.stateReg = .start
  mcu : b.mcu = .released

end Board

def rcMBits : ℕ := 24

def rcControlStart : BitVec 32 := BitVec.twoPow 32 rcMBits

/-- `rc_reset`, which spins after its write. -/
def rcReset (counts : BitVec 32) (b : Board) : Board :=
  if 0 < counts then
    { b with
      rc1Control := (rcControlStart ||| (counts &&& BitVec.twoPow 32 (rcMBits - 1))).setWidth 25 }
  else b

/-- The board, `t` clocks after the call. -/
def run (counts : BitVec 32) (b : Board) (t : ℕ) : Board :=
  exec (fun b (_ : Unit) => b.next) (rcReset counts b) (fun _ => ()) t

/-- The call resets the processor: `rc1_reset` is high for at least `counts` clocks on end
and then released, and the reset reaches the processor. -/
structure Resets (counts : BitVec 32) (b : Board) : Prop where
  held : ∃ a n, counts.toNat ≤ n ∧
    (∀ t, a ≤ t → t < a + n → (run counts b t).rc1Reset = true) ∧
    (run counts b (a + n)).rc1Reset = false
  reaches : ∃ t, (run counts b t).mcu.resetOut = true

/-! ### The control word -/

section
variable {counts : BitVec 32} {b : Board}

/-- The one count that can be asked for. -/
def theCount : BitVec 24 := BitVec.twoPow 24 23

lemma rc1In_rcReset (h : b.mcu = .released) (hpos : 0 < counts.toNat) :
    (rcReset counts b).rc1In =
      ⟨true, if counts.getLsbD 23 then theCount else 0⟩ := by
  have h0 : 0 < counts := by rwa [BitVec.lt_def]
  have hword : (rcControlStart ||| (counts &&& BitVec.twoPow 32 (rcMBits - 1))) =
      if counts.getLsbD 23 then BitVec.twoPow 32 24 ||| BitVec.twoPow 32 23
      else BitVec.twoPow 32 24 := by
    rw [rcControlStart, rcMBits, BitVec.and_twoPow]
    split <;> simp
  simp only [Board.rc1In, Board.control, rcReset, if_pos h0, h, McuReset.resetOut,
    McuReset.released, Bool.false_eq_true, if_false, hword]
  cases counts.getLsbD 23 <;> rfl

/-- The input of `rc1` on every clock. -/
abbrev inputs (counts : BitVec 32) (b : Board) (t : ℕ) : ResetController.In 24 :=
  (run counts b t).rc1In

lemma run_rc1 (t : ℕ) :
    (run counts b t).rc1 = exec ResetController.next b.rc1 (inputs counts b) t := by
  have hstart : (rcReset counts b).rc1 = b.rc1 := by
    rw [rcReset]
    split <;> rfl
  rw [← hstart]
  exact exec_part (fun _ => rfl) t

lemma run_mcu (h : b.mcu = .released) (t : ℕ) :
    (run counts b t).mcu =
      exec McuReset.next .released (fun u => (run counts b u).rc1Reset) t := by
  have hstart : (rcReset counts b).mcu = .released := by
    rw [rcReset, ← h]
    split <;> rfl
  rw [← hstart]
  exact exec_part (fun _ => rfl) t

lemma inputs_cases (t : ℕ) :
    inputs counts b t = inputs counts b 0 ∨ inputs counts b t = ⟨false, 0⟩ := by
  have hword : (run counts b t).control = (run counts b 0).control ∨
      (run counts b t).control = 0 := by
    induction t with
    | zero => exact Or.inl rfl
    | succ t ih =>
      have hreg : (run counts b (t + 1)).rc1Control = (run counts b t).control := rfl
      rw [Board.control, hreg]
      split
      · exact Or.inr rfl
      · exact ih
  rcases hword with hw | hw
  · left
    simp only [inputs, Board.rc1In, hw]
  · right
    simp only [inputs, Board.rc1In, hw]
    rfl

/-- Once it is gone it stays away. -/
lemma control_gone {a t : ℕ} (h : (run counts b a).control = 0) (ht : a ≤ t) :
    (run counts b t).control = 0 := by
  induction t, ht using Nat.le_induction with
  | base => exact h
  | succ t _ ih =>
    have hreg : (run counts b (t + 1)).rc1Control = (run counts b t).control := rfl
    rw [Board.control, hreg, ih]
    split <;> rfl

/-! ### A count the hardware is told of -/

section
variable (h : b.Idle) (hpos : 0 < counts.toNat) (hbit : counts.getLsbD 23 = true)
include h hpos hbit

lemma inputs_zero : inputs counts b 0 = ⟨true, theCount⟩ := by
  have := rc1In_rcReset h.mcu hpos
  rwa [if_pos hbit] at this

lemma holding_run {j : ℕ} (hj : j ≤ 2 ^ 23 + 1) :
    ResetController.Holding theCount j (run counts b (j + 1)).rc1 := by
  have h0 := inputs_zero h hpos hbit
  have hcount : theCount.toNat = 2 ^ 23 := rfl
  have hsame : ∀ t, (inputs counts b t).start = true →
      (inputs counts b t).m = (inputs counts b 0).m := by
    intro t ht
    rcases inputs_cases t with hi | hi
    · rw [hi]
    · rw [hi] at ht
      cases ht
  have hhold := ResetController.holding_exec (j := j) h.rc1 (by rw [h0]) (by rw [h0]; decide)
    (fun t _ => hsame t) (by rw [h0, hcount]; exact hj)
  rw [h0, ← run_rc1] at hhold
  exact hhold

lemma rc1Reset_held {t : ℕ} (h1 : 1 ≤ t) (h2 : t ≤ 2 ^ 23 + 2) :
    (run counts b t).rc1Reset = true := by
  have := (holding_run h hpos hbit (j := t - 1) (by omega)).phase
  rw [Nat.sub_add_cancel h1] at this
  exact (ResetController.en_iff _).mpr this

lemma mcu_run {t : ℕ} (h1 : 7 ≤ t) (h2 : t ≤ 2 ^ 23 + 2) :
    (run counts b t).mcu = .asserted := by
  have hfirst : (run counts b 0).rc1Reset = false := by
    rw [Board.rc1Reset, run_rc1, exec_zero, ResetController.en, h.rc1]
    rfl
  rw [run_mcu h.mcu, show t = 1 + (t - 1) by omega, exec_add]
  have hstart : exec McuReset.next .released (fun u => (run counts b u).rc1Reset) 1 =
      .released := by
    rw [exec_succ, exec_zero, hfirst]
    rfl
  have hheld : ∀ u < t - 1, (run counts b (1 + u)).rc1Reset = true :=
    fun u hu => rc1Reset_held h hpos hbit (by omega) (by omega)
  rw [hstart, exec_congr hheld, McuReset.exec_true (by omega)]

lemma control_run {t : ℕ} (ht : 7 ≤ t) : (run counts b t).control = 0 := by
  refine control_gone (a := 7) ?_ ht
  rw [Board.control, mcu_run h hpos hbit le_rfl (by omega)]
  rfl

/-- **The one count holds `rc1_reset` for `2 ^ 23 + 2` clocks.** -/
lemma rc1Reset_iff (t : ℕ) : (run counts b t).rc1Reset = true ↔ 1 ≤ t ∧ t ≤ 2 ^ 23 + 2 := by
  constructor
  · intro ht
    by_contra hout
    have hstart : (run counts b t).rc1.stateReg = .start := by
      rcases Nat.eq_zero_or_pos t with rfl | hp
      · rw [run_rc1]
        exact h.rc1
      · rw [run_rc1]
        refine ResetController.idle_exec (a := 2 ^ 23 + 3) ?_ (by omega) (fun u hu _ => Or.inl ?_)
        · rw [show 2 ^ 23 + 3 = (2 ^ 23 + 1) + 1 + 1 from rfl, exec_succ, ← run_rc1]
          exact (holding_run h hpos hbit (j := 2 ^ 23 + 1) le_rfl).last
        · simp only [inputs, Board.rc1In, control_run h hpos hbit (show 7 ≤ u by omega)]
          rfl
    rw [Board.rc1Reset, ResetController.en_iff, hstart] at ht
    cases ht
  · rintro ⟨h1, h2⟩
    exact rc1Reset_held h hpos hbit h1 h2

end

/-- Any other count is a count of nothing, and nothing happens. -/
lemma rc1Reset_never (h : b.Idle) (hpos : 0 < counts.toNat) (hbit : counts.getLsbD 23 = false)
    (t : ℕ) : (run counts b t).rc1Reset = false := by
  have h0 : (inputs counts b 0).m = 0 := by
    have := rc1In_rcReset h.mcu hpos
    rw [hbit] at this
    exact congrArg ResetController.In.m this
  have hstart : (run counts b t).rc1.stateReg = .start := by
    rw [run_rc1]
    refine ResetController.idle_exec (a := 0) h.rc1 (Nat.zero_le t) (fun u _ _ => Or.inr ?_)
    rcases inputs_cases u with hi | hi
    · rw [hi, h0]
    · rw [hi]
  rw [Board.rc1Reset, Bool.eq_false_iff, ne_eq, ResetController.en_iff, hstart]
  decide

lemma getLsbD_23_iff (hlt : counts.toNat < 2 ^ 24) :
    counts.getLsbD 23 = true ↔ 2 ^ 23 ≤ counts.toNat := by
  rw [BitVec.getLsbD, Nat.testBit_eq_decide_div_mod_eq, decide_eq_true_eq]
  omega

/-- **`rc_reset` resets the processor for as long as it is asked to exactly for three of its
counts**, `2 ^ 23` and the two after it. -/
theorem resets_iff (h : b.Idle) (hpos : 1 ≤ counts.toNat) (hlt : counts.toNat < 2 ^ 24) :
    Resets counts b ↔ 2 ^ 23 ≤ counts.toNat ∧ counts.toNat ≤ 2 ^ 23 + 2 := by
  constructor
  · rintro ⟨⟨a, n, hn, hheld, -⟩, -⟩
    have hbit : counts.getLsbD 23 = true := by
      by_contra hno
      have := hheld a le_rfl (by omega)
      rw [rc1Reset_never h hpos (by simpa using hno)] at this
      cases this
    have hfirst := (rc1Reset_iff h hpos hbit a).mp (hheld a le_rfl (by omega))
    have hlast := (rc1Reset_iff h hpos hbit (a + n - 1)).mp (hheld _ (by omega) (by omega))
    exact ⟨(getLsbD_23_iff hlt).mp hbit, by omega⟩
  · rintro ⟨hlo, hhi⟩
    have hbit := (getLsbD_23_iff hlt).mpr hlo
    refine ⟨⟨1, 2 ^ 23 + 2, hhi, fun t h1 h2 => ?_, ?_⟩, 7, ?_⟩
    · exact (rc1Reset_iff h hpos hbit t).mpr ⟨h1, by omega⟩
    · rw [Bool.eq_false_iff, ne_eq, rc1Reset_iff h hpos hbit]
      omega
    · rw [mcu_run h hpos hbit le_rfl (by omega)]
      rfl

end

def running : Board where
  rc1 := ⟨.start, 0, ModMCounter.reset⟩
  mcu := .released
  rc1Control := 0

lemma idle_running : running.Idle := ⟨rfl, rfl⟩

theorem resets_top_count :
    Resets 0x800000 running ↔
      2 ^ 23 ≤ (0x800000 : BitVec 32).toNat ∧ (0x800000 : BitVec 32).toNat ≤ 2 ^ 23 + 2 :=
  resets_iff idle_running (by decide) (by decide)

/-- A count of one: the controller is started with a count of zero, and the processor spins
for ever. -/
theorem not_resets_one : running.Idle ∧ (∀ t, (run 1 running t).rc1Reset = false) ∧
    ¬ Resets 1 running := by
  have hnever : ∀ t, (run 1 running t).rc1Reset = false :=
    rc1Reset_never idle_running (by decide) (by decide)
  refine ⟨idle_running, hnever, fun hr => ?_⟩
  obtain ⟨a, n, hn, hheld, -⟩ := hr.held
  have := hheld a le_rfl (Nat.lt_add_of_pos_right (Nat.lt_of_lt_of_le (by decide) hn))
  rw [hnever] at this
  cases this

end Blastit.Fw.SelfReset
