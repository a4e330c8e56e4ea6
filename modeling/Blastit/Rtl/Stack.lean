import Blastit.Lib.Flags
import Blastit.Lib.Lifo
import Blastit.Lib.Sizing

/-!
`stack.v`: a stack of `2 ^ W` cells with one pointer, which wraps.

A write wins over a read on the same clock. The pointer stands on the free cell, so a word
read is on `rd_data` one clock after its `rd`. The flags tell of a pointer that has wrapped:
`of` after a write, until the next read, and `uf` after a read, until the next write.
-/

namespace Blastit.Rtl.Stack

open Blastit.Lib.Clocked Blastit.Lib.Flags Blastit.Lib.Lifo Blastit.Lib.Sizing

structure State (B W : ℕ) where
  arrayReg : BitVec W → BitVec B
  dataReg : BitVec W
  ofReg : Bool
  ufReg : Bool

structure In (B : ℕ) where
  rd : Bool
  wr : Bool
  wrData : BitVec B

variable {B W : ℕ}

def rdData (s : State B W) : BitVec B := s.arrayReg s.dataReg

/-- The registers after `reset`; the array is not reset. -/
def reset (s : State B W) : State B W := { s with dataReg := 0, ofReg := false, ufReg := false }

def next (s : State B W) (i : In B) : State B W :=
  let dataSucc := s.dataReg + 1
  let dataPred := s.dataReg - 1
  if i.wr then
    { arrayReg := Function.update s.arrayReg s.dataReg i.wrData
      dataReg := dataSucc
      ofReg := if dataSucc < s.dataReg then true else s.ofReg
      ufReg := false }
  else if i.rd then
    { s with
      dataReg := dataPred
      ufReg := if s.dataReg < dataPred then true else s.ufReg
      ofReg := false }
  else s

def op (i : In B) : Op (BitVec B) :=
  if i.wr then .push i.wrData else if i.rd then .pop else .hold

/-! ### The words -/

/-- The array keeps the stack `st` below the pointer. -/
def Holds (s : State B W) (st : List (BitVec B)) : Prop := Stores s.arrayReg s.dataReg st

section
variable {s : State B W} {st : List (BitVec B)} {i : In B}

/-- One clock of the array is one clock of the bounded stack, on any input. -/
theorem Holds.next (h : Holds s st) (i : In B) : Holds (next s i) (lstep (2 ^ W) st (op i)) := by
  unfold Holds Stack.next op
  cases hw : i.wr with
  | true =>
    simp only [if_true]
    exact Stores.push h i.wrData
  | false =>
    cases hr : i.rd with
    | true =>
      simp only [Bool.false_eq_true, if_false, if_true]
      exact Stores.pop h
    | false =>
      simp only [Bool.false_eq_true, if_false]
      exact h

lemma Holds.rdData_next {x : BitVec B} (h : Holds s (x :: st)) (hop : op i = .pop) :
    rdData (Stack.next s i) = x := by
  unfold op at hop
  split_ifs at hop with hw hr
  rw [rdData, Stack.next, if_neg hw, if_pos hr]
  exact Stores.head h

end

/-! ### Runs from reset -/

section
variable (s : State B W) (ins : ℕ → In B)

abbrev run (t : ℕ) : State B W := exec next (reset s) ins t

/-- The words on the stack if none was ever forgotten. -/
abbrev pushed (t : ℕ) : List (BitVec B) := exec step [] (fun u => op (ins u)) t

/-- The words on the stack at clock `t`. -/
abbrev kept (W : ℕ) (t : ℕ) : List (BitVec B) := exec (lstep (2 ^ W)) [] (fun u => op (ins u)) t

lemma holds_run (t : ℕ) : Holds (run s ins t) (kept ins W t) := by
  induction t with
  | zero => exact stores_nil _ _
  | succ t ih => exact ih.next (ins t)

/-- **Last in, first out**: on any inputs, a read of a stack that keeps a word puts its newest
one on `rd_data` at the next clock; what the stack keeps is the top of all words pushed and
not popped, at most `2 ^ W` of them, and all of them as long as there were never more. -/
theorem pops_newest (t : ℕ) :
    (∀ x st, kept ins W t = x :: st → op (ins t) = .pop → rdData (run s ins (t + 1)) = x) ∧
      kept ins W t <+: pushed ins t ∧ (kept ins W t).length ≤ 2 ^ W ∧
      ((∀ u ≤ t, (pushed ins u).length ≤ 2 ^ W) → kept ins W t = pushed ins t) := by
  refine ⟨fun x st hst hop => ?_, exec_initial _ t, length_exec _ t, fun h => exec_eq _ h⟩
  have hholds := holds_run s ins t
  rw [hst] at hholds
  exact hholds.rdData_next hop

/-! ### The flags -/

def level : ℕ → ℤ
  | 0 => 0
  | t + 1 =>
    match op (ins t) with
    | .push _ => level t + 1
    | .pop => level t - 1
    | .hold => level t

/-- A push fills the array up to its end. -/
def FillsUp (W : ℕ) (t : ℕ) : Prop := (∃ x, op (ins t) = .push x) ∧ (2 ^ W : ℤ) ∣ level ins (t + 1)

/-- A pop goes below its beginning. -/
def GoesBelow (W : ℕ) (t : ℕ) : Prop := op (ins t) = .pop ∧ (2 ^ W : ℤ) ∣ level ins t

variable {s ins} {t : ℕ}

lemma dataReg_run (t : ℕ) : (run s ins t).dataReg = BitVec.ofInt W (level ins t) := by
  induction t with
  | zero => simp [run, reset, level]
  | succ t ih =>
    rw [run, exec_succ, next]
    cases hw : (ins t).wr with
    | true =>
      simp only [level, op, hw, if_true]
      rw [BitVec.ofInt_add, ← ih]
      rfl
    | false =>
      cases hr : (ins t).rd with
      | true =>
        simp only [level, op, hw, hr, if_true, Bool.false_eq_true, if_false]
        rw [Int.sub_eq_add_neg, BitVec.ofInt_add, BitVec.ofInt_neg, ← ih]
        exact sub_eq_add_neg _ _
      | false =>
        simp only [level, op, hw, hr, Bool.false_eq_true, if_false]
        exact ih

lemma dataReg_eq_zero_iff (t : ℕ) : (run s ins t).dataReg = 0 ↔ (2 ^ W : ℤ) ∣ level ins t := by
  rw [dataReg_run, ← BitVec.toNat_inj, BitVec.toNat_ofInt]
  have hpos : (0 : ℤ) < ((2 ^ W : ℕ) : ℤ) := by exact_mod_cast Nat.two_pow_pos W
  have hmod := Int.emod_nonneg (level ins t) hpos.ne'
  have hcast : ((2 ^ W : ℕ) : ℤ) = 2 ^ W := by push_cast; rfl
  have hzero : (0 : BitVec W).toNat = 0 := Nat.zero_mod _
  rw [Int.dvd_iff_emod_eq_zero, ← hcast, hzero]
  omega

/-- A successor below its number has wrapped. -/
lemma succ_lt_iff (hW : 1 ≤ W) (p : BitVec W) : p + 1 < p ↔ p + 1 = 0 := by
  have h2 : 2 ≤ 2 ^ W := Nat.pow_le_pow_right (n := 2) (by decide) hW
  have hlt := p.isLt
  have hzero : (0 : BitVec W).toNat = 0 := Nat.zero_mod _
  rw [BitVec.lt_def, ← BitVec.toNat_inj, hzero]
  rcases Nat.lt_or_ge (p.toNat + 1) (2 ^ W) with h | h
  · rw [toNat_succ h]
    omega
  · rw [toNat_wrap h]
    omega

/-- A predecessor above its number has wrapped. -/
lemma lt_pred_iff (hW : 1 ≤ W) (p : BitVec W) : p < p - 1 ↔ p = 0 := by
  have h := succ_lt_iff hW (p - 1)
  rw [show p - 1 + 1 = p from sub_add_cancel p 1] at h
  exact h

lemma ofReg_succ (hW : 1 ≤ W) (t : ℕ) : (run s ins (t + 1)).ofReg = true ↔
    FillsUp ins W t ∨ ((run s ins t).ofReg = true ∧ ¬ op (ins t) = .pop) := by
  have hzero := @dataReg_eq_zero_iff _ _ s ins (t + 1)
  rw [FillsUp, ← hzero, run, exec_succ, next]
  cases hw : (ins t).wr with
  | true =>
    simp only [op, hw, if_true, succ_lt_iff hW]
    simp
  | false => cases hr : (ins t).rd <;> simp [op, hw, hr]

lemma ufReg_succ (hW : 1 ≤ W) (t : ℕ) : (run s ins (t + 1)).ufReg = true ↔
    GoesBelow ins W t ∨ ((run s ins t).ufReg = true ∧ ¬ ∃ x, op (ins t) = .push x) := by
  have hzero := @dataReg_eq_zero_iff _ _ s ins t
  rw [GoesBelow, ← hzero, run, exec_succ, next]
  cases hw : (ins t).wr with
  | true => simp [op, hw]
  | false =>
    cases hr : (ins t).rd with
    | true =>
      simp only [op, hw, hr, if_true, Bool.false_eq_true, if_false, lt_pred_iff hW]
      simp
    | false => simp [op, hw, hr]

lemma ufReg_iff (hW : 1 ≤ W) : (run s ins t).ufReg = true ↔
    Since (GoesBelow ins W) (fun u => ∃ x, op (ins u) = .push x) t :=
  @flag_iff _ _ (fun t => (run s ins t).ufReg = true) (by simp [run, reset]) (ufReg_succ hW) t

/-- **What the flags say**, on any inputs: `of` is high exactly if, since the last pop, a push
has filled the array up to its end, and `uf` exactly if, since the last push, a pop has gone
below its beginning. -/
theorem flags_iff (hW : 1 ≤ W) (t : ℕ) :
    ((run s ins t).ofReg = true ↔ Since (FillsUp ins W) (fun u => op (ins u) = .pop) t) ∧
      ((run s ins t).ufReg = true ↔
        Since (GoesBelow ins W) (fun u => ∃ x, op (ins u) = .push x) t) := by
  refine ⟨?_, ufReg_iff hW⟩
  exact @flag_iff _ _ (fun t => (run s ins t).ofReg = true) (by simp [run, reset]) (ofReg_succ hW) t

/-! ### A stack used as one -/

/-- No pop of an empty stack and no push on a full one on the clocks before `t`. -/
structure Disciplined (ins : ℕ → In B) (W t : ℕ) : Prop where
  pop : ∀ u < t, op (ins u) = .pop → pushed ins u ≠ []
  push : ∀ u < t, ∀ x, op (ins u) = .push x → (pushed ins u).length < 2 ^ W

lemma Disciplined.before {u : ℕ} (h : Disciplined ins W t) (hu : u ≤ t) : Disciplined ins W u :=
  ⟨fun v hv => h.pop v (by omega), fun v hv => h.push v (by omega)⟩

lemma pushed_succ (ins : ℕ → In B) (t : ℕ) :
    pushed ins (t + 1) = step (pushed ins t) (op (ins t)) := rfl

lemma Disciplined.level_eq (h : Disciplined ins W t) :
    level ins t = (pushed ins t).length ∧ (pushed ins t).length ≤ 2 ^ W := by
  induction t with
  | zero => exact ⟨rfl, Nat.zero_le _⟩
  | succ t ih =>
    obtain ⟨hlevel, hroom⟩ := ih (h.before (Nat.le_succ t))
    rw [level, pushed_succ]
    cases hop : op (ins t) with
    | push x =>
      have := h.push t (Nat.lt_succ_self t) x hop
      simp only [step, List.length_cons]
      omega
    | pop =>
      have := List.length_pos_iff.mpr (h.pop t (Nat.lt_succ_self t) hop)
      simp only [step, List.length_tail]
      omega
    | hold => exact ⟨hlevel, hroom⟩

lemma dvd_iff {n : ℕ} (h0 : 0 < n) (hn : n ≤ 2 ^ W) : (2 ^ W : ℤ) ∣ (n : ℤ) ↔ n = 2 ^ W := by
  have hcast : ((2 ^ W : ℕ) : ℤ) = 2 ^ W := by push_cast; rfl
  rw [← hcast, Int.natCast_dvd_natCast]
  constructor
  · intro h
    exact Nat.le_antisymm hn (Nat.le_of_dvd h0 h)
  · rintro rfl
    exact dvd_rfl

/-- A stack is full when the pointer has come round. -/
lemma Disciplined.full (h : Disciplined ins W t) (hne : pushed ins t ≠ []) :
    (2 ^ W : ℤ) ∣ level ins t ↔ (pushed ins t).length = 2 ^ W := by
  rw [h.level_eq.1]
  exact dvd_iff (List.length_pos_iff.mpr hne) h.level_eq.2

lemma ofReg_full (hW : 1 ≤ W) (h : Disciplined ins W t) :
    (run s ins t).ofReg = true ↔ (pushed ins t).length = 2 ^ W := by
  induction t with
  | zero =>
    have hpos := Nat.two_pow_pos W
    simp [run, reset, hpos.ne]
  | succ t ih =>
    have hroom := (h.before (Nat.le_succ t)).level_eq.2
    rw [ofReg_succ hW, ih (h.before (Nat.le_succ t)), FillsUp]
    cases hop : op (ins t) with
    | push x =>
      have hlt := h.push t (Nat.lt_succ_self t) x hop
      have hne : pushed ins (t + 1) ≠ [] := by
        rw [pushed_succ, hop]
        exact List.cons_ne_nil _ _
      rw [h.full hne]
      simp [hlt.ne]
    | pop =>
      have hpos := List.length_pos_iff.mpr (h.pop t (Nat.lt_succ_self t) hop)
      rw [pushed_succ, hop, step, List.length_tail]
      simp only [reduceCtorEq, exists_false, false_and, not_true, and_false, or_self, false_iff]
      omega
    | hold =>
      rw [pushed_succ, hop]
      simp [step]

/-- **Used as a stack, `of` is its full flag**: as long as no empty stack is popped and no
full one pushed, every word pushed and not popped is kept and `of` is high exactly while
`2 ^ W` words are on it. `uf` is not the flag of an empty one: it is high exactly if, since
the last push, a full stack was popped. -/
theorem full_disciplined (hW : 1 ≤ W) (h : Disciplined ins W t) :
    kept ins W t = pushed ins t ∧
      ((run s ins t).ofReg = true ↔ (pushed ins t).length = 2 ^ W) ∧
      ((run s ins t).ufReg = true ↔
        Since (fun u => op (ins u) = .pop ∧ (pushed ins u).length = 2 ^ W)
          (fun u => ∃ x, op (ins u) = .push x) t) := by
  refine ⟨exec_eq _ fun u hu => (h.before hu).level_eq.2, ofReg_full hW h, ?_⟩
  rw [ufReg_iff hW]
  refine since_congr fun u hu => and_congr_right fun hop => ?_
  exact (h.before hu.le).full (h.pop u hu hop)

/-- Two pushes on a stack of two cells. -/
def twoPushes (u : ℕ) : In 8 := ⟨false, decide (u < 2), BitVec.ofNat 8 u⟩

def cleared : State 8 1 := ⟨fun _ => 0, 0, false, false⟩

theorem flags_twoPushes : Since (FillsUp twoPushes 1) (fun u => op (twoPushes u) = .pop) 2 :=
  (flags_iff (s := cleared) (by decide) 2).1.mp rfl

lemma disciplined_twoPushes : Disciplined twoPushes 1 2 := by
  constructor
  · intro u hu
    rcases (by omega : u = 0 ∨ u = 1) with rfl | rfl <;> exact fun h => nomatch h
  · intro u hu x _
    rcases (by omega : u = 0 ∨ u = 1) with rfl | rfl <;> decide

theorem full_twoPushes : (pushed twoPushes 2).length = 2 ^ 1 :=
  (full_disciplined (s := cleared) (by decide) disciplined_twoPushes).2.1.mp rfl

end

end Blastit.Rtl.Stack
