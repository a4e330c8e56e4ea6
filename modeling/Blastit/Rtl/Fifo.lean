import Blastit.Lib.Ring
import Blastit.Lib.Sizing

/-!
`fifo.v`: a first-in first-out buffer of `2 ^ W` cells, of which `2 ^ W - 1` are meant to
be used, with `empty` and `full` computed from the two pointers.

The pointers are `W` bits wide and wrap; the flag `full` compares `w_ptr_reg` with
`r_ptr_reg - 1` at 32 bits, so the two disagree where the read pointer stands at zero.
The buffer is related to the queue of `Lib.Ring`: whatever `full` says, it holds the
queue as long as fewer than `2 ^ W` words are stored.
-/

namespace Blastit.Rtl.Fifo

open Blastit.Lib.Clocked Blastit.Lib.Ring Blastit.Lib.Sizing

structure State (B W : ℕ) where
  arrayReg : BitVec W → BitVec B
  wPtrReg : BitVec W
  rPtrReg : BitVec W
  ofReg : Bool
  ufReg : Bool

structure In (B : ℕ) where
  rd : Bool
  wr : Bool
  wData : BitVec B

variable {B W : ℕ}

def full (s : State B W) : Bool := s.wPtrReg.setWidth 32 == s.rPtrReg.setWidth 32 - 1

def empty (s : State B W) : Bool := s.wPtrReg == s.rPtrReg

def rData (s : State B W) : BitVec B := s.arrayReg s.rPtrReg

/-- The registers after `reset`; the array is not reset. -/
def reset (s : State B W) : State B W :=
  { s with wPtrReg := 0, rPtrReg := 0, ofReg := false, ufReg := false }

def next (s : State B W) (i : In B) : State B W :=
  let wPtrSucc := s.wPtrReg + 1
  let rPtrSucc := s.rPtrReg + 1
  let arrayNext := if i.wr then Function.update s.arrayReg s.wPtrReg i.wData else s.arrayReg
  if i.rd && i.wr then
    { s with arrayReg := arrayNext, rPtrReg := rPtrSucc, wPtrReg := wPtrSucc }
  else if i.rd then
    { s with
      arrayReg := arrayNext
      ufReg := if s.wPtrReg == s.rPtrReg then true else s.ufReg
      rPtrReg := rPtrSucc }
  else if i.wr then
    { s with
      arrayReg := arrayNext
      ofReg := if s.wPtrReg.setWidth 32 == s.rPtrReg.setWidth 32 - 1 then true else s.ofReg
      wPtrReg := wPtrSucc }
  else { s with arrayReg := arrayNext }

def op (i : In B) : Op (BitVec B) := ⟨i.rd, if i.wr then some i.wData else none⟩

lemma next_rPtrReg (s : State B W) (i : In B) :
    (next s i).rPtrReg = if i.rd then s.rPtrReg + 1 else s.rPtrReg := by
  cases hr : i.rd <;> cases hw : i.wr <;> simp [next, hr, hw]

lemma next_wPtrReg (s : State B W) (i : In B) :
    (next s i).wPtrReg = if i.wr then s.wPtrReg + 1 else s.wPtrReg := by
  cases hr : i.rd <;> cases hw : i.wr <;> simp [next, hr, hw]

lemma next_arrayReg (s : State B W) (i : In B) :
    (next s i).arrayReg =
      if i.wr then Function.update s.arrayReg s.wPtrReg i.wData else s.arrayReg := by
  cases hr : i.rd <;> cases hw : i.wr <;> simp [next, hr, hw]

lemma ptr_exec {α : Type*} {ptr : State B W → BitVec W} {moves : In B → Bool}
    (hptr : ∀ s i, ptr (next s i) = if moves i then ptr s + 1 else ptr s) (s : State B W)
    {ins : ℕ → In B} {out : ℕ → List α}
    (hout : ∀ u, (out u).length = if moves (ins u) then 1 else 0) (t : ℕ) :
    ptr (exec next s ins t) = ptr s + BitVec.ofNat W (collect out t).length := by
  induction t with
  | zero => simp
  | succ t ih =>
    rw [exec_succ, hptr, ih, collect_succ, List.length_append, hout, BitVec.ofNat_add,
      ← BitVec.add_assoc]
    split <;> simp

/-! ### The words the buffer holds -/

/-- The buffer stores the queue `q` between its pointers. -/
def Holds (s : State B W) (q : List (BitVec B)) : Prop :=
  Stores s.arrayReg s.rPtrReg s.wPtrReg q

lemma holds_reset (s : State B W) : Holds (reset s) [] :=
  ⟨Nat.two_pow_pos W, by simp [reset], rfl⟩

lemma Holds.empty_iff {s : State B W} {q : List (BitVec B)} (h : Holds s q) :
    empty s = true ↔ q = [] := by
  rw [empty, beq_iff_eq]; exact Stores.empty_iff h

lemma Holds.rData_eq {s : State B W} {x : BitVec B} {q : List (BitVec B)}
    (h : Holds s (x :: q)) : rData s = x := Stores.head h

lemma Holds.head? {s : State B W} {q : List (BitVec B)} (h : Holds s q)
    (hne : empty s = false) : q.head? = some (rData s) := by
  rcases q with _ | ⟨x, r⟩
  · rw [h.empty_iff.mpr rfl] at hne; cases hne
  · rw [h.rData_eq, List.head?_cons]

/-- One clock of the buffer is one clock of the queue, while there is room. -/
theorem Holds.next {s : State B W} {q : List (BitVec B)} {i : In B} (h : Holds s q)
    (hrd : i.rd → q ≠ []) (hroom : (qstep q (op i)).length < 2 ^ W) :
    Holds (next s i) (qstep q (op i)) := by
  have hs := Stores.step (o := op i) h hrd hroom
  unfold Holds
  rw [next_arrayReg, next_rPtrReg, next_wPtrReg]
  cases hw : i.wr <;> simpa [op, hw] using hs

lemma Holds.wPtr_of_rPtr_zero {s : State B W} {q : List (BitVec B)} (h : Holds s q)
    (hr : s.rPtrReg = 0) : s.wPtrReg.toNat = q.length := by
  have hwp := congrArg BitVec.toNat h.wp_eq
  rw [BitVec.toNat_add, BitVec.toNat_ofNat, Nat.mod_eq_of_lt h.room, hr] at hwp
  rw [hwp]
  simpa using Nat.mod_eq_of_lt h.room

/-- **The flag `full`** says that `2 ^ W - 1` words are stored, unless the read pointer
stands at zero, where it is never raised. -/
lemma Holds.full_iff {s : State B W} {q : List (BitVec B)} (hW : W < 32) (h : Holds s q) :
    full s = true ↔ q.length + 1 = 2 ^ W ∧ s.rPtrReg ≠ 0 := by
  have hwp := congrArg BitVec.toNat h.wp_eq
  rw [BitVec.toNat_add, BitVec.toNat_ofNat, Nat.mod_eq_of_lt h.room] at hwp
  have hr := s.rPtrReg.isLt
  have hq := h.room
  have hz : s.rPtrReg ≠ 0 ↔ s.rPtrReg.toNat ≠ 0 := by
    rw [ne_eq, ne_eq, ← BitVec.toNat_inj]; rfl
  rw [full, eq_sub_one_iff _ _ hW hW, hz, hwp]
  rcases Nat.lt_or_ge (s.rPtrReg.toNat + q.length) (2 ^ W) with hlt | hge
  · rw [Nat.mod_eq_of_lt hlt]; omega
  · rw [Nat.mod_eq_sub_mod hge, Nat.mod_eq_of_lt (by omega)]; omega

/-! ### Runs from reset -/

abbrev run (s : State B W) (ins : ℕ → In B) (t : ℕ) : State B W := exec next (reset s) ins t

/-- The words written on the clocks before `t`. -/
def written (ins : ℕ → In B) : ℕ → List (BitVec B) :=
  collect fun u => if (ins u).wr then [(ins u).wData] else []

/-- The words handed out on the clocks before `t`: what `r_data` shows where `rd` is high. -/
def read (s : State B W) (ins : ℕ → In B) : ℕ → List (BitVec B) :=
  collect fun u => if (ins u).rd then [rData (run s ins u)] else []

/-- The written words that have not been read. -/
def unread (s : State B W) (ins : ℕ → In B) (t : ℕ) : List (BitVec B) :=
  (written ins t).drop (read s ins t).length

/-- `rd` only while `empty` is low, `wr` only while `full` is low. -/
def Disciplined (s : State B W) (i : In B) : Prop :=
  (i.rd → empty s = false) ∧ (i.wr → full s = false)

instance (s : State B W) (i : In B) : Decidable (Disciplined s i) :=
  inferInstanceAs (Decidable (_ ∧ _))

/-- The bounded queue of capacity `2 ^ W - 1`, as the ports of the buffer show it. -/
structure Meets (s : State B W) (ins : ℕ → In B) (t : ℕ) : Prop where
  empty : empty (run s ins t) = true ↔ unread s ins t = []
  full : full (run s ins t) = true ↔ (unread s ins t).length = 2 ^ W - 1
  head : Fifo.empty (run s ins t) = false →
    (unread s ins t).head? = some (rData (run s ins t))
  order : read s ins t ++ unread s ins t = written ins t

/-- The clock that fills the buffer while the read pointer stands at zero: it stores word
number `2 ^ W - 1` and hands none out. -/
def FillsAtZero (s : State B W) (i : In B) : Prop :=
  i.wr = true ∧ i.rd = false ∧ s.rPtrReg = 0 ∧ s.wPtrReg.toNat + 2 = 2 ^ W

/-- The queue after the operations of the clocks before `t`. -/
def contents (ins : ℕ → In B) (t : ℕ) : List (BitVec B) := exec qstep [] (fun u => op (ins u)) t

/-- `full` tells the truth about the queue `q`. -/
def Accurate (s : State B W) (q : List (BitVec B)) : Prop :=
  full s = true ↔ q.length + 1 = 2 ^ W

lemma Disciplined.ne_nil {s : State B W} {i : In B} {q : List (BitVec B)}
    (hd : Disciplined s i) (h : Holds s q) (hrd : i.rd) : q ≠ [] := by
  intro hq
  have := hd.1 hrd
  rw [h.empty_iff.mpr hq] at this
  cases this

lemma length_qstep_op {q : List (BitVec B)} {i : In B} (h : i.rd → q ≠ []) :
    (qstep q (op i)).length + (if i.rd then 1 else 0) = q.length + (if i.wr then 1 else 0) := by
  have := length_qstep (o := op i) h
  cases hw : i.wr <;> simpa [op, hw] using this

lemma Holds.next_disciplined {s : State B W} {q : List (BitVec B)} {i : In B} (h : Holds s q)
    (hacc : Accurate s q) (hd : Disciplined s i) : Holds (Fifo.next s i) (qstep q (op i)) := by
  refine h.next (hd.ne_nil h) ?_
  have hlen := length_qstep_op (hd.ne_nil h)
  have hroom := h.room
  cases hw : i.wr with
  | false => rw [hw] at hlen; split at hlen <;> simp at hlen <;> omega
  | true =>
    have hf : ¬ full s = true := by rw [hd.2 hw]; decide
    have := mt hacc.mpr hf
    rw [hw] at hlen
    split at hlen <;> simp at hlen <;> omega

/-- The one way `full` stops being accurate. -/
lemma Accurate.next {s : State B W} {q : List (BitVec B)} {i : In B} (hW : W < 32)
    (h : Holds s q) (hacc : Accurate s q) (hd : Disciplined s i) (hz : ¬ FillsAtZero s i) :
    Accurate (Fifo.next s i) (qstep q (op i)) := by
  have h' := h.next_disciplined hacc hd
  have hlen := length_qstep_op (hd.ne_nil h)
  have hroom := h.room
  rw [Accurate, h'.full_iff hW]
  refine ⟨fun hf => hf.1, fun hq => ⟨hq, fun hr => ?_⟩⟩
  rw [next_rPtrReg] at hr
  cases hwr : i.wr with
  | false =>
    cases hrd : i.rd with
    | false =>
      -- nothing moved, so the flag was already wrong
      simp only [hwr, hrd, Bool.false_eq_true, if_false, Nat.add_zero] at hlen hr
      have := (h.full_iff hW).mp (hacc.mpr (by omega))
      exact this.2 hr
    | true =>
      simp only [hwr, hrd, if_true, Bool.false_eq_true, if_false] at hlen
      omega
  | true =>
    have hf : ¬ q.length + 1 = 2 ^ W := fun hq' => by
      have := hacc.mpr hq'
      rw [hd.2 hwr] at this
      cases this
    cases hrd : i.rd with
    | true =>
      simp only [hwr, hrd, if_true] at hlen
      omega
    | false =>
      simp only [hwr, hrd, if_true, Bool.false_eq_true, if_false] at hlen hr
      refine hz ⟨hwr, hrd, hr, ?_⟩
      rw [h.wPtr_of_rPtr_zero hr]
      omega

lemma read_append_contents {s : State B W} {ins : ℕ → In B} {t : ℕ}
    (h : ∀ u < t, Holds (run s ins u) (contents ins u))
    (hd : ∀ u < t, Disciplined (run s ins u) (ins u)) :
    read s ins t ++ contents ins t = written ins t := by
  have hread : read s ins t =
      collect (fun u => popped (contents ins u) (op (ins u))) t := by
    refine collect_congr fun u hu => ?_
    rw [popped]
    cases hrd : (ins u).rd with
    | false => simp [op, hrd]
    | true => simp [op, hrd, (h u hu).head? ((hd u hu).1 hrd)]
  have hwritten : written ins t = collect (fun u => (op (ins u)).push.toList) t := by
    refine collect_congr fun u _ => ?_
    cases hw : (ins u).wr <;> simp [op, hw]
  rw [hread, hwritten]
  exact conservation _ fun u hu hp => (hd u hu).ne_nil (h u hu) hp

lemma unread_eq {s : State B W} {ins : ℕ → In B} {t : ℕ}
    (h : read s ins t ++ contents ins t = written ins t) : unread s ins t = contents ins t := by
  rw [unread, ← h, List.drop_left]

lemma meets_of_holds {s : State B W} {ins : ℕ → In B} {t : ℕ}
    (hlog : read s ins t ++ contents ins t = written ins t)
    (h : Holds (run s ins t) (contents ins t))
    (hacc : Accurate (run s ins t) (contents ins t)) : Meets s ins t := by
  have hu := unread_eq hlog
  refine ⟨?_, ?_, ?_, ?_⟩
  · rw [hu]; exact h.empty_iff
  · rw [hu]; refine Iff.trans hacc ?_; have := Nat.two_pow_pos W; omega
  · rw [hu]; exact h.head?
  · rw [hu]; exact hlog

variable {s : State B W} {ins : ℕ → In B} {T : ℕ}

/-- The run lemma: without a fill at zero the queue is held and `full` is accurate. -/
lemma run_accurate (hW : 1 ≤ W) (hW' : W < 32)
    (hd : ∀ t < T, Disciplined (run s ins t) (ins t))
    (hz : ∀ t < T, ¬ FillsAtZero (run s ins t) (ins t)) :
    ∀ t ≤ T, Holds (run s ins t) (contents ins t) ∧ Accurate (run s ins t) (contents ins t) := by
  intro t
  induction t with
  | zero =>
    intro _
    have h0 : Holds (run s ins 0) (contents ins 0) := holds_reset s
    refine ⟨h0, ?_⟩
    have : 2 ^ 1 ≤ 2 ^ W := Nat.pow_le_pow_right (by omega) hW
    rw [Accurate, h0.full_iff hW']
    simp only [contents, exec_zero, List.length_nil]
    omega
  | succ t ih =>
    intro ht
    obtain ⟨h, hacc⟩ := ih (by omega)
    exact ⟨h.next_disciplined hacc (hd t (by omega)),
      hacc.next hW' h (hd t (by omega)) (hz t (by omega))⟩

/-- The other run lemma: where every clock meets the specification, the queue is held. -/
lemma run_holds_of_meets (hd : ∀ t < T, Disciplined (run s ins t) (ins t))
    (hm : ∀ t ≤ T, Meets s ins t) :
    ∀ t ≤ T, Holds (run s ins t) (contents ins t) ∧ unread s ins t = contents ins t := by
  intro t
  induction t using Nat.strong_induction_on with
  | _ t ih =>
    intro ht
    have hlog := read_append_contents (fun u hu => (ih u hu (by omega)).1)
      fun u hu => hd u (by omega)
    refine ⟨?_, unread_eq hlog⟩
    rcases t with _ | t
    · exact holds_reset s
    · obtain ⟨h, hu⟩ := ih t (by omega) (by omega)
      refine h.next_disciplined ?_ (hd t (by omega))
      rw [Accurate, (hm t (by omega)).full, hu]
      have := Nat.two_pow_pos W
      omega

/-- **The buffer is the bounded queue exactly as long as no clock fills it at zero.** On
every disciplined run, every state reached meets the specification if and only if no
clock stores word number `2 ^ W - 1` while the read pointer stands at zero. -/
theorem meets_iff_not_fillsAtZero (hW : 1 ≤ W) (hW' : W < 32)
    (hd : ∀ t < T, Disciplined (run s ins t) (ins t)) :
    (∀ t ≤ T, Meets s ins t) ↔ ∀ t < T, ¬ FillsAtZero (run s ins t) (ins t) := by
  constructor
  · intro hm t ht hz
    have hrun := run_holds_of_meets hd hm
    obtain ⟨h, -⟩ := hrun t (by omega)
    obtain ⟨h', hu'⟩ := hrun (t + 1) (by omega)
    obtain ⟨hwr, hrd, hr, hw⟩ := hz
    have hlen := length_qstep_op (i := ins t) (q := contents ins t) (by simp [hrd])
    have hc : contents ins (t + 1) = qstep (contents ins t) (op (ins t)) := rfl
    have hwp := h.wPtr_of_rPtr_zero hr
    simp only [hwr, hrd, if_true, Bool.false_eq_true, if_false] at hlen
    have hfull := (hm (t + 1) (by omega)).full.mpr (by rw [hu', hc]; omega)
    refine ((h'.full_iff hW').mp hfull).2 ?_
    rw [run, exec_succ, next_rPtrReg, hrd]
    exact hr
  · intro hz t ht
    have hrun := run_accurate hW hW' hd hz
    exact meets_of_holds
      (read_append_contents (fun u hu => (hrun u (by omega)).1) fun u hu => hd u (by omega))
      (hrun t ht).1 (hrun t ht).2

def blank : State B W := ⟨fun _ => 0, 0, 0, false, false⟩

/-- Three words written into a buffer of four cells, none read. -/
def threeWrites (t : ℕ) : In 8 := ⟨false, t < 3, BitVec.ofNat 8 t⟩

theorem meets_two_writes :
    (∀ t ≤ 2, Meets (blank : State 8 2) threeWrites t) ↔
      ∀ t < 2, ¬ FillsAtZero (run (blank : State 8 2) threeWrites t) (threeWrites t) :=
  meets_iff_not_fillsAtZero (by decide) (by decide) (by decide)

/-- The third write fills the buffer and `full` stays low. -/
theorem not_meets_three_writes :
    (∀ t < 3, Disciplined (run (blank : State 8 2) threeWrites t) (threeWrites t)) ∧
      ¬ Meets (blank : State 8 2) threeWrites 3 := by
  refine ⟨by decide, fun hm => ?_⟩
  have hlen : (unread (blank : State 8 2) threeWrites 3).length = 2 ^ 2 - 1 := by decide
  have hfull := hm.full.mpr hlen
  exact absurd hfull (by decide)

end Blastit.Rtl.Fifo
