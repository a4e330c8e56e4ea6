import Blastit.Lib.Clocked
import Mathlib.Data.BitVec
import Mathlib.Data.List.TakeDrop
import Mathlib.Logic.Function.Basic

/-!
First-in first-out queues, and the ring buffer that stores one.

The queue is a list; one clock may remove its head and append a word at once. The ring
buffer keeps the list in a memory indexed by `w`-bit addresses, from a read address
onwards and wrapping at `2 ^ w`; fewer than `2 ^ w` words are stored, so the cell after
the last one is always free.
-/

namespace Blastit.Lib.Ring

open Blastit.Lib.Clocked

universe u
variable {α : Type u}

/-! ### The queue -/

structure Op (α : Type u) where
  pop : Bool
  push : Option α

/-- The queue after one clock: the head goes first, the new word comes last. -/
def qstep (q : List α) (o : Op α) : List α :=
  (if o.pop then q.tail else q) ++ o.push.toList

/-- The word handed out on a clock. -/
def popped (q : List α) (o : Op α) : List α := if o.pop then q.head?.toList else []

lemma popped_append_qstep {q : List α} {o : Op α} (h : o.pop → q ≠ []) :
    popped q o ++ qstep q o = q ++ o.push.toList := by
  unfold popped qstep
  cases ho : o.pop with
  | false => simp
  | true =>
    obtain ⟨a, r, rfl⟩ := List.exists_cons_of_ne_nil (h ho)
    simp

lemma length_qstep {q : List α} {o : Op α} (h : o.pop → q ≠ []) :
    (qstep q o).length + (if o.pop then 1 else 0) = q.length + o.push.toList.length := by
  unfold qstep
  cases ho : o.pop with
  | false => simp
  | true =>
    obtain ⟨a, r, rfl⟩ := List.exists_cons_of_ne_nil (h ho)
    simp; omega

lemma length_le_pushed (ops : ℕ → Op α) (t : ℕ) :
    (exec qstep [] ops t).length ≤ (collect (fun u => (ops u).push.toList) t).length := by
  induction t with
  | zero => exact Nat.zero_le _
  | succ t ih =>
    rw [exec_succ, collect_succ, qstep, List.length_append, List.length_append]
    split
    · rw [List.length_tail]; omega
    · omega

lemma length_exec_le (q : List α) (ops : ℕ → Op α) (t : ℕ) :
    (exec qstep q ops t).length ≤
      q.length + (collect (fun u => (ops u).push.toList) t).length := by
  induction t with
  | zero => exact Nat.le_refl _
  | succ t ih =>
    rw [exec_succ, collect_succ, qstep, List.length_append, List.length_append]
    split
    · rw [List.length_tail]; omega
    · omega

/-- **Conservation**: the words handed out, then the words stored, are the words put in. -/
theorem conservation (ops : ℕ → Op α) {t : ℕ}
    (h : ∀ u < t, (ops u).pop → exec qstep [] ops u ≠ []) :
    collect (fun u => popped (exec qstep [] ops u) (ops u)) t ++ exec qstep [] ops t =
      collect (fun u => (ops u).push.toList) t := by
  induction t with
  | zero => rfl
  | succ t ih =>
    rw [collect_succ, collect_succ, exec_succ, List.append_assoc,
      popped_append_qstep (h t (by omega)), ← List.append_assoc,
      ih fun u hu => h u (by omega)]

/-! ### The ring buffer -/

variable {w : ℕ}

/-- The `n` words stored from address `r` on. -/
def window (mem : BitVec w → α) (r : BitVec w) : ℕ → List α
  | 0 => []
  | n + 1 => mem r :: window mem (r + 1) n

lemma window_snoc (mem : BitVec w → α) (r : BitVec w) (n : ℕ) :
    window mem r (n + 1) = window mem r n ++ [mem (r + BitVec.ofNat w n)] := by
  induction n generalizing r with
  | zero => simp [window]
  | succ n ih =>
    have e : r + BitVec.ofNat w (n + 1) = r + 1 + BitVec.ofNat w n := by
      rw [BitVec.ofNat_add]; ac_rfl
    rw [window, ih (r + 1), window, e]; rfl

lemma add_ofNat_ne {r : BitVec w} {i n : ℕ} (hi : i < n) (hn : n < 2 ^ w) :
    r + BitVec.ofNat w i ≠ r + BitVec.ofNat w n := by
  intro h
  have h' : BitVec.ofNat w i = BitVec.ofNat w n := (BitVec.add_right_inj r).mp h
  have := congrArg BitVec.toNat h'
  rw [BitVec.toNat_ofNat, BitVec.toNat_ofNat, Nat.mod_eq_of_lt (by omega),
    Nat.mod_eq_of_lt hn] at this
  omega

lemma window_update {mem : BitVec w → α} {r p : BitVec w} {x : α} {n : ℕ}
    (h : ∀ i < n, r + BitVec.ofNat w i ≠ p) :
    window (Function.update mem p x) r n = window mem r n := by
  induction n with
  | zero => rfl
  | succ n ih =>
    rw [window_snoc, window_snoc, ih fun i hi => h i (by omega),
      Function.update_of_ne (h n (by omega))]

lemma window_push {mem : BitVec w → α} {r : BitVec w} {x : α} {n : ℕ} (hn : n < 2 ^ w) :
    window (Function.update mem (r + BitVec.ofNat w n) x) r (n + 1) =
      window mem r n ++ [x] := by
  rw [window_snoc, window_update fun i hi => add_ofNat_ne hi hn, Function.update_self]

/-- A memory and two addresses store the queue `q`. -/
structure Stores (mem : BitVec w → α) (rp wp : BitVec w) (q : List α) : Prop where
  room : q.length < 2 ^ w
  wp_eq : wp = rp + BitVec.ofNat w q.length
  words : window mem rp q.length = q

lemma Stores.empty_iff {mem : BitVec w → α} {rp wp : BitVec w} {q : List α}
    (h : Stores mem rp wp q) : wp = rp ↔ q = [] := by
  constructor
  · intro he
    by_contra hq
    have hlen : 0 < q.length := List.length_pos_iff.mpr hq
    have := add_ofNat_ne (r := rp) hlen h.room
    rw [← h.wp_eq, he] at this
    simp at this
  · rintro rfl
    simpa using h.wp_eq

lemma Stores.head {mem : BitVec w → α} {rp wp : BitVec w} {x : α} {q : List α}
    (h : Stores mem rp wp (x :: q)) : mem rp = x := by
  have := h.words
  simp only [List.length_cons, window, List.cons.injEq] at this
  exact this.1

/-- The words from one address up to another. -/
def between (mem : BitVec w → α) (rp wp : BitVec w) : List α := window mem rp (wp - rp).toNat

@[simp] lemma between_self (mem : BitVec w → α) (rp : BitVec w) : between mem rp rp = [] := by
  simp [between, window]

@[simp] lemma length_window (mem : BitVec w → α) (r : BitVec w) (n : ℕ) :
    (window mem r n).length = n := by
  induction n generalizing r with
  | zero => rfl
  | succ n ih => simp [window, ih]

/-- Any memory stores what lies between any two addresses. -/
lemma stores_between (mem : BitVec w → α) (rp wp : BitVec w) :
    Stores mem rp wp (between mem rp wp) where
  room := by simpa [between] using (wp - rp).isLt
  wp_eq := by
    rw [between, length_window, BitVec.ofNat_toNat, BitVec.setWidth_eq, BitVec.add_comm,
      BitVec.sub_add_cancel]
  words := by simp [between]

lemma Stores.eq_between {mem : BitVec w → α} {rp wp : BitVec w} {q : List α}
    (h : Stores mem rp wp q) : between mem rp wp = q := by
  have hlen : (wp - rp).toNat = q.length := by
    rw [h.wp_eq, BitVec.add_comm, BitVec.add_sub_cancel, BitVec.toNat_ofNat,
      Nat.mod_eq_of_lt h.room]
  rw [between, hlen, h.words]

/-- The address behind `2 ^ w - 1` words is one short of the first. -/
lemma Stores.wrap {mem : BitVec w → α} {rp wp : BitVec w} {q : List α}
    (h : Stores mem rp wp q) (hq : q.length + 1 = 2 ^ w) : wp + 1 = rp := by
  have hone : BitVec.ofNat w q.length + 1 = 0 := calc
    BitVec.ofNat w q.length + 1 = BitVec.ofNat w (q.length + 1) := (BitVec.ofNat_add _ 1).symm
    _ = 0 := by
      rw [hq]
      exact BitVec.eq_of_toNat_eq (by rw [BitVec.toNat_ofNat, Nat.mod_self]; rfl)
  rw [h.wp_eq, BitVec.add_assoc, hone]
  exact BitVec.add_zero rp

/-- **One clock of the ring buffer is one clock of the queue.** -/
theorem Stores.step {mem : BitVec w → α} {rp wp : BitVec w} {q : List α} {o : Op α}
    (h : Stores mem rp wp q) (hpop : o.pop → q ≠ []) (hroom : (qstep q o).length < 2 ^ w) :
    Stores (match o.push with | some x => Function.update mem wp x | none => mem)
      (if o.pop then rp + 1 else rp) (if o.push.isSome then wp + 1 else wp) (qstep q o) := by
  obtain ⟨pop, push⟩ := o
  -- the write first: it goes to the free cell and lengthens the window
  have hw : ∀ x, window (Function.update mem wp x) rp (q.length + 1) = q ++ [x] := fun x => by
    rw [h.wp_eq, window_push h.room, h.words]
  have hwp : wp + 1 = rp + BitVec.ofNat w (q.length + 1) := by
    rw [h.wp_eq, BitVec.ofNat_add]; ac_rfl
  cases pop with
  | false =>
    cases push with
    | none => simpa [qstep] using h
    | some x =>
      refine ⟨hroom, ?_, ?_⟩
      · simpa [qstep] using hwp
      · simpa [qstep] using hw x
  | true =>
    obtain ⟨a, r, rfl⟩ := List.exists_cons_of_ne_nil (hpop rfl)
    cases push with
    | none =>
      have hr := h.words
      simp only [List.length_cons, window, List.cons.injEq] at hr
      refine ⟨hroom, ?_, ?_⟩
      · have := h.wp_eq
        simp only [List.length_cons, BitVec.ofNat_add] at this
        simp only [qstep, if_true, List.tail_cons, Option.toList_none, List.append_nil,
          Option.isSome_none, Bool.false_eq_true, if_false]
        rw [this]; ac_rfl
      · simpa [qstep] using hr.2
    | some x =>
      have hr : window (Function.update mem wp x) (rp + 1) (r.length + 1) = r ++ [x] :=
        (List.cons.inj (hw x)).2
      refine ⟨hroom, ?_, ?_⟩
      · simp only [List.length_cons, BitVec.ofNat_add] at hwp
        simp only [qstep, if_true, List.tail_cons, Option.toList_some, Option.isSome_some,
          List.length_append, List.length_singleton, BitVec.ofNat_add]
        rw [hwp]; ac_rfl
      · simpa [qstep] using hr

end Blastit.Lib.Ring
