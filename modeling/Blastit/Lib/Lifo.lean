import Blastit.Lib.Clocked
import Mathlib.Data.BitVec
import Mathlib.Data.List.Infix
import Mathlib.Logic.Function.Basic

/-!
Last-in first-out stores of a bounded depth, and the wrapping memory that keeps one.

A full stack takes another word by forgetting its oldest one. The memory keeps the words
below an address that wraps, the newest next to it; with as many cells as the stack is deep a
push overwrites just the word to be forgotten.
-/

namespace Blastit.Lib.Lifo

open Blastit.Lib.Clocked

universe u
variable {α : Type u}

inductive Op (α : Type u)
  | push (x : α)
  | pop
  | hold

/-- A stack of any depth, the newest word first. -/
def step (st : List α) : Op α → List α
  | .push x => x :: st
  | .pop => st.tail
  | .hold => st

/-- A stack of depth `n`: a full one forgets its oldest word. -/
def lstep (n : ℕ) (st : List α) : Op α → List α
  | .push x => (x :: st).take n
  | .pop => st.tail
  | .hold => st

variable {n : ℕ} {st full : List α} {o : Op α}

lemma length_lstep (h : st.length ≤ n) (o : Op α) : (lstep n st o).length ≤ n := by
  cases o with
  | push x => exact List.length_take_le n _
  | pop => exact (List.length_tail ▸ Nat.sub_le _ 1).trans h
  | hold => exact h

lemma length_exec (ops : ℕ → Op α) (t : ℕ) : (exec (lstep n) [] ops t).length ≤ n :=
  exec_inv_all (I := fun st : List α => st.length ≤ n) (by simp) (fun _ o h => length_lstep h o) t

/-- What a bounded stack keeps is the top of an unbounded one. -/
lemma lstep_initial (h : st <+: full) (o : Op α) : lstep n st o <+: step full o := by
  cases o with
  | push x => exact (List.take_prefix n _).trans (List.cons_prefix_cons.mpr ⟨rfl, h⟩)
  | pop =>
    obtain ⟨l, rfl⟩ := h
    cases st with
    | nil => exact List.nil_prefix
    | cons x st => exact List.prefix_append st l
  | hold => exact h

theorem exec_initial (ops : ℕ → Op α) (t : ℕ) :
    exec (lstep n) [] ops t <+: exec step [] ops t := by
  induction t with
  | zero => exact List.prefix_rfl
  | succ t ih => exact lstep_initial ih (ops t)

/-- **Nothing is forgotten** while no more than `n` words are on the unbounded stack. -/
theorem exec_eq (ops : ℕ → Op α) {t : ℕ} (h : ∀ u ≤ t, (exec step [] ops u).length ≤ n) :
    exec (lstep n) [] ops t = exec step [] ops t := by
  induction t with
  | zero => rfl
  | succ t ih =>
    have hroom := h (t + 1) le_rfl
    rw [exec_succ] at hroom
    rw [exec_succ, exec_succ, ih fun u hu => h u (by omega)]
    cases hop : ops t with
    | push x =>
      rw [hop] at hroom
      exact List.take_of_length_le hroom
    | pop | hold => rfl

/-! ### A memory that wraps -/

variable {w : ℕ} {mem : BitVec w → α} {p : BitVec w}

/-- Below the address `p` the memory keeps the stack, the newest word next to `p`. -/
structure Stores (mem : BitVec w → α) (p : BitVec w) (st : List α) : Prop where
  room : st.length ≤ 2 ^ w
  cell : ∀ (i : ℕ) (h : i < st.length), mem (p - BitVec.ofNat w (i + 1)) = st[i]

lemma stores_nil (mem : BitVec w → α) (p : BitVec w) : Stores mem p [] :=
  ⟨Nat.zero_le _, fun _ h => absurd h (Nat.not_lt_zero _)⟩

lemma Stores.head {x : α} (h : Stores mem p (x :: st)) : mem (p - 1) = x := by
  have := h.cell 0 (Nat.succ_pos _)
  simpa using this

lemma sub_ofNat_succ (p : BitVec w) (i : ℕ) :
    p + 1 - BitVec.ofNat w (i + 1) = p - BitVec.ofNat w i := by
  rw [BitVec.ofNat_add]
  exact add_sub_add_right_eq_sub _ _ _

lemma sub_ofNat_ne {i : ℕ} (h0 : 0 < i) (hi : i < 2 ^ w) : p - BitVec.ofNat w i ≠ p := by
  intro h
  have hz : BitVec.ofNat w i = 0 := by
    have := congrArg (p - ·) h
    simpa using this
  have := congrArg BitVec.toNat hz
  rw [BitVec.toNat_ofNat, Nat.mod_eq_of_lt hi] at this
  exact absurd this (by simpa using h0.ne')

/-- **One clock of the memory is one clock of the stack**: a push writes at the address and
moves it up, a pop moves it down. -/
lemma Stores.push (h : Stores mem p st) (x : α) :
    Stores (Function.update mem p x) (p + 1) (lstep (2 ^ w) st (.push x)) := by
  refine ⟨length_lstep h.room _, fun i hi => ?_⟩
  have hlen : (lstep (2 ^ w) st (.push x)).length = min (2 ^ w) (st.length + 1) := by
    rw [lstep, List.length_take, List.length_cons]
  simp only [lstep, List.getElem_take]
  rw [sub_ofNat_succ]
  cases i with
  | zero => simp
  | succ i =>
    rw [Function.update_of_ne (sub_ofNat_ne (Nat.succ_pos i) (by omega)),
      List.getElem_cons_succ]
    exact h.cell i (by omega)

lemma Stores.pop (h : Stores mem p st) : Stores mem (p - 1) (lstep (2 ^ w) st .pop) := by
  refine ⟨length_lstep h.room _, fun i hi => ?_⟩
  have hlen : (lstep (2 ^ w) st .pop).length = st.length - 1 := by
    rw [lstep, List.length_tail]
  have hcell := h.cell (i + 1) (by omega)
  simp only [lstep, List.getElem_tail]
  rw [← hcell, BitVec.ofNat_add (i + 1) 1]
  exact congrArg mem (sub_sub p 1 _ |>.trans (by rw [add_comm]; rfl))

end Blastit.Lib.Lifo
