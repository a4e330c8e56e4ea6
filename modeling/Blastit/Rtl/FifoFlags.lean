import Blastit.Rtl.Fifo

/-!
The flags `of` and `uf`, without any discipline on `rd` and `wr`.

The words stored are those between the two pointers, whatever has happened to them. A write
that closes the ring loses all of them, and a read of an empty buffer hands out a word that was
never written; the first raises `of` unless the read pointer stands at zero, the second `uf`
unless a word is written on the same clock.
-/

namespace Blastit.Rtl.Fifo

open Blastit.Lib.Clocked Blastit.Lib.Ring Blastit.Lib.Sizing

variable {B W : ℕ}

def stored (s : State B W) : List (BitVec B) := between s.arrayReg s.rPtrReg s.wPtrReg

/-- Neither `of` nor `uf` is set. -/
def Unflagged (s : State B W) : Prop := s.ofReg = false ∧ s.ufReg = false

/-- The words handed out before clock `t` of a run, followed by those stored, are the words
written. -/
def Accounts (s : State B W) (ins : ℕ → In B) (t : ℕ) : Prop :=
  read s ins t ++ stored (run s ins t) = written ins t

/-- A clock that loses words and raises no flag: a write without a read into the last cell
while the read pointer stands at zero, or a read that takes another word than the one written
on the same clock out of an empty buffer. -/
def Silent (s : State B W) (i : In B) : Prop :=
  (i.wr = true ∧ i.rd = false ∧ s.rPtrReg = 0 ∧ s.wPtrReg.toNat + 1 = 2 ^ W) ∨
    (i.rd = true ∧ i.wr = true ∧ empty s = true ∧ rData s ≠ i.wData)

instance (s : State B W) (i : In B) : Decidable (Silent s i) := inferInstanceAs (Decidable (_ ∨ _))

/-! ### One clock -/

section
variable {s : State B W} {i : In B} {q : List (BitVec B)}

lemma holds_stored (s : State B W) : Holds s (stored s) := stores_between _ _ _

lemma Holds.stored_eq (h : Holds s q) : stored s = q := h.eq_between

lemma next_ofReg (s : State B W) (i : In B) :
    (next s i).ofReg = (s.ofReg || (i.wr && !i.rd && full s)) := by
  cases hr : i.rd <;> cases hw : i.wr <;> cases hf : full s <;>
    simp_all [next, full]

lemma next_ufReg (s : State B W) (i : In B) :
    (next s i).ufReg = (s.ufReg || (i.rd && !i.wr && empty s)) := by
  cases hr : i.rd <;> cases hw : i.wr <;> cases he : empty s <;>
    simp_all [next, empty]

lemma Unflagged.of_next (h : Unflagged (next s i)) :
    Unflagged s ∧ ¬ (i.wr && !i.rd && full s) = true ∧ ¬ (i.rd && !i.wr && empty s) = true := by
  obtain ⟨hof, huf⟩ := h
  rw [next_ofReg] at hof
  rw [next_ufReg] at huf
  simp only [Bool.or_eq_false_iff] at hof huf
  exact ⟨⟨hof.1, huf.1⟩, by simp [hof.2], by simp [huf.2]⟩

lemma Unflagged.next (h : Unflagged s) (hof : (i.wr && !i.rd && full s) = false)
    (huf : (i.rd && !i.wr && empty s) = false) : Unflagged (next s i) := by
  refine ⟨?_, ?_⟩
  · rw [next_ofReg, h.1, hof, Bool.or_self]
  · rw [next_ufReg, h.2, huf, Bool.or_self]

lemma stored_next (s : State B W) (i : In B) :
    (stored (next s i) = qstep (stored s) (op i) ∧ (i.rd = true → stored s ≠ [])) ∨
      (i.wr = true ∧ i.rd = false ∧ (stored s).length + 1 = 2 ^ W ∧ stored (next s i) = []) ∨
      (i.rd = true ∧ empty s = true) := by
  have h := holds_stored s
  by_cases hrd : i.rd = true → stored s ≠ []
  · have hlen := length_qstep_op hrd
    by_cases hroom : (qstep (stored s) (op i)).length < 2 ^ W
    · exact Or.inl ⟨(h.next hrd hroom).stored_eq, hrd⟩
    · -- only a write without a read finds no room
      have hlt := h.room
      refine Or.inr (Or.inl ?_)
      cases hr : i.rd <;> cases hw : i.wr <;> simp only [hr, hw] at hlen <;> simp at hlen
      · omega
      · have hfull : (stored s).length + 1 = 2 ^ W := by omega
        refine ⟨rfl, rfl, hfull, ?_⟩
        rw [stored, next_wPtrReg, next_rPtrReg, hr, hw, if_pos rfl, if_neg Bool.false_ne_true,
          h.wrap hfull]
        exact between_self _ _
      · omega
      · omega
  · obtain ⟨hr, hq⟩ := Classical.not_imp.mp hrd
    exact Or.inr (Or.inr ⟨hr, h.empty_iff.mpr (not_not.mp hq)⟩)

lemma stored_next_both (hrd : i.rd = true) (hwr : i.wr = true) (he : empty s = true) :
    stored s = [] ∧ stored (next s i) = [] := by
  have hptr : s.wPtrReg = s.rPtrReg := by simpa [empty] using he
  refine ⟨(holds_stored s).empty_iff.mp he, ?_⟩
  rw [stored, next_wPtrReg, next_rPtrReg, hrd, hwr, if_pos rfl, if_pos rfl, hptr]
  exact between_self _ _

/-- The last cell, and what `full` says of it. -/
lemma full_of_room (hW : W < 32) (hlen : (stored s).length + 1 = 2 ^ W) :
    full s = true ↔ s.rPtrReg ≠ 0 := by
  rw [(holds_stored s).full_iff hW]
  simp [hlen]

end

/-! ### Runs from reset -/

section
variable {s : State B W} {ins : ℕ → In B} {t T : ℕ}

lemma read_succ (s : State B W) (ins : ℕ → In B) (t : ℕ) : read s ins (t + 1) =
    read s ins t ++ if (ins t).rd then [rData (run s ins t)] else [] := rfl

lemma written_succ (ins : ℕ → In B) (t : ℕ) :
    written ins (t + 1) = written ins t ++ if (ins t).wr then [(ins t).wData] else [] := rfl

lemma Accounts.next_queue (h : Accounts s ins t)
    (hq : stored (run s ins (t + 1)) = qstep (stored (run s ins t)) (op (ins t)))
    (hrd : (ins t).rd = true → stored (run s ins t) ≠ []) : Accounts s ins (t + 1) := by
  have hpush : (op (ins t)).push.toList = if (ins t).wr then [(ins t).wData] else [] := by
    cases hw : (ins t).wr <;> simp [op, hw]
  have hpop : popped (stored (run s ins t)) (op (ins t)) =
      if (ins t).rd then [rData (run s ins t)] else [] := by
    cases hr : (ins t).rd with
    | false => simp [popped, op, hr]
    | true =>
      have hne : empty (run s ins t) = false := by
        simpa using mt (holds_stored _).empty_iff.mp (hrd hr)
      simp [popped, op, hr, (holds_stored _).head? hne]
  calc
    read s ins (t + 1) ++ stored (run s ins (t + 1))
      = read s ins t ++ (popped (stored (run s ins t)) (op (ins t)) ++
          qstep (stored (run s ins t)) (op (ins t))) := by
        rw [read_succ, hq, hpop, List.append_assoc]
    _ = read s ins t ++ stored (run s ins t) ++ (op (ins t)).push.toList := by
        rw [popped_append_qstep (o := op (ins t)) hrd, List.append_assoc]
    _ = written ins (t + 1) := by rw [written_succ, hpush, h]

/-- **The step lemma**: a clock that leaves both flags low keeps the account exactly if it is
not silent. -/
lemma Accounts.next_iff (hW : W < 32) (h : Accounts s ins t)
    (hlow : Unflagged (run s ins (t + 1))) :
    Accounts s ins (t + 1) ↔ ¬ Silent (run s ins t) (ins t) := by
  obtain ⟨-, hof, huf⟩ := Unflagged.of_next hlow
  rcases stored_next (run s ins t) (ins t) with ⟨hq, hrd⟩ | ⟨hwr, hrd, hlen, hnil⟩ | ⟨hrd, he⟩
  · refine iff_of_true (h.next_queue hq hrd) ?_
    rintro (⟨hwr, hr, hz, hlast⟩ | ⟨hr, -, he, -⟩)
    · have hwp := (holds_stored (run s ins t)).wPtr_of_rPtr_zero hz
      have hroom := (holds_stored (run s ins (t + 1))).room
      have hlen := length_qstep_op (i := ins t) hrd
      rw [show run s ins (t + 1) = next (run s ins t) (ins t) from rfl, hq] at hroom
      simp [hwr, hr] at hlen
      omega
    · exact hrd hr ((holds_stored _).empty_iff.mp he)
  · -- everything stored is lost
    have hz : (run s ins t).rPtrReg = 0 := by
      by_contra hne
      exact hof (by simp [hwr, hrd, (full_of_room hW hlen).mpr hne])
    have hwp := (holds_stored (run s ins t)).wPtr_of_rPtr_zero hz
    refine iff_of_false (fun h' => ?_) (not_not.mpr (Or.inl ⟨hwr, hrd, hz, by omega⟩))
    have hcount := congrArg List.length h
    have hcount' := congrArg List.length h'
    rw [show run s ins (t + 1) = next (run s ins t) (ins t) from rfl, hnil, read_succ,
      written_succ] at hcount'
    simp [hwr, hrd] at hcount hcount'
    omega
  · have hwr : (ins t).wr = true := by
      by_contra hw
      exact huf (by simp [hrd, hw, he])
    obtain ⟨hnil, hnil'⟩ := stored_next_both hrd hwr he
    have hread : read s ins t = written ins t := by
      rw [Accounts, hnil, List.append_nil] at h
      exact h
    rw [Accounts, read_succ, written_succ, hread,
      show run s ins (t + 1) = next (run s ins t) (ins t) from rfl, hnil']
    simp [Silent, hrd, hwr, he]

lemma Silent.unflagged {i : In B} (hW : W < 32) (h : Silent s i) (hlow : Unflagged s) :
    Unflagged (next s i) := by
  rcases h with ⟨hwr, hrd, hz, hlast⟩ | ⟨hrd, hwr, -, -⟩
  · have hwp := (holds_stored s).wPtr_of_rPtr_zero hz
    have hfull : full s = false := by
      rw [← Bool.not_eq_true, full_of_room hW (by omega)]
      simp [hz]
    exact hlow.next (by simp [hfull]) (by simp [hrd])
  · exact hlow.next (by simp [hrd]) (by simp [hwr])

lemma accounts_zero (s : State B W) (ins : ℕ → In B) : Accounts s ins 0 := by
  show [] ++ stored (reset s) = []
  exact (holds_reset s).stored_eq

/-- The run lemma: without a silent clock, a run whose flags are low accounts for every word. -/
lemma run_accounts (hW : W < 32)
    (hno : ∀ t < T, Unflagged (run s ins t) → ¬ Silent (run s ins t) (ins t)) :
    ∀ t ≤ T, Unflagged (run s ins t) → Accounts s ins t := by
  intro t
  induction t with
  | zero => exact fun _ _ => accounts_zero s ins
  | succ t ih =>
    intro ht hlow
    have hlow' : Unflagged (run s ins t) := (Unflagged.of_next hlow).1
    exact ((ih (by omega) hlow').next_iff hW hlow).mpr (hno t (by omega) hlow')

/-- **Lost words are flagged exactly as long as no clock is silent.** In a run from reset with
any `rd` and `wr`, every state with both flags low accounts for every word if and only if no
clock before it, with both flags low, is silent. -/
theorem accounts_iff_not_silent (hW : W < 32) (s : State B W) (ins : ℕ → In B) (T : ℕ) :
    (∀ t ≤ T, Unflagged (run s ins t) → Accounts s ins t) ↔
      ∀ t < T, Unflagged (run s ins t) → ¬ Silent (run s ins t) (ins t) := by
  constructor
  · intro h t ht hlow hsilent
    have hlow' : Unflagged (run s ins (t + 1)) := hsilent.unflagged hW hlow
    have hnext := h (t + 1) (by omega) hlow'
    exact ((h t (by omega) hlow).next_iff hW hlow').mp hnext hsilent
  · exact run_accounts hW

end

/-- Two words written into a buffer of four cells. -/
theorem accounts_two_writes :
    (∀ t ≤ 2, Unflagged (run (blank : State 8 2) threeWrites t) →
        Accounts (blank : State 8 2) threeWrites t) ↔
      ∀ t < 2, Unflagged (run (blank : State 8 2) threeWrites t) →
        ¬ Silent (run (blank : State 8 2) threeWrites t) (threeWrites t) :=
  accounts_iff_not_silent (by decide) _ _ _

def fourWrites (t : ℕ) : In 8 := ⟨false, t < 4, BitVec.ofNat 8 (t + 1)⟩

/-- A word written and read at once, from reset. -/
def readWrite (_ : ℕ) : In 8 := ⟨true, true, 1⟩

/-- The fourth write loses all four words, and a word read while it is written is not the one
written; no flag is raised by either. -/
theorem not_accounts :
    (Unflagged (run (blank : State 8 2) fourWrites 4) ∧
        ¬ Accounts (blank : State 8 2) fourWrites 4) ∧
      Unflagged (run (blank : State 8 2) readWrite 1) ∧
      ¬ Accounts (blank : State 8 2) readWrite 1 := by
  unfold Unflagged Accounts
  decide

end Blastit.Rtl.Fifo
