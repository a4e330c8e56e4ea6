import Mathlib.Data.List.Basic
import Mathlib.Tactic.Common

/-!
Singly linked chains: the nodes a link function visits from a start up to the null link.
-/

namespace Blastit.Lib.Links

variable {α : Type*} {null : α} {next : α → α} {x : α} {l : List α}

/-- The chain that starts at `x` visits the nodes `l`. -/
inductive Chain (null : α) (next : α → α) : α → List α → Prop
  | nil : Chain null next null []
  | cons {x : α} {l : List α} (hx : x ≠ null) (hl : Chain null next (next x) l) :
    Chain null next x (x :: l)

lemma Chain.head_eq {y : α} (h : Chain null next x (y :: l)) : y = x := by
  cases h
  rfl

/-- **The closure rule**: what holds of the start and is kept by every link holds of all
the nodes. -/
theorem Chain.forall_mem {S : α → Prop} (h : Chain null next x l) (hx : S x)
    (hnext : ∀ y, S y → S (next y)) : ∀ y ∈ l, S y := by
  induction h with
  | nil => simp
  | cons _ _ ih =>
    intro y hy
    rcases List.mem_cons.mp hy with rfl | hy
    · exact hx
    · exact ih (hnext _ hx) y hy

end Blastit.Lib.Links
