import Blastit.Lib.Links
import Mathlib.Data.BitVec
import Mathlib.Logic.Function.Basic

/-!
`display.c`: the singly linked lists of the display.

`display_slink_add` takes the address of its own parameter for the node it links, so the
node is a slot of the stack: `slot` is the address of that parameter in the call. The slot
is taken to be large enough for the three stores. Loops run on fuel, and running out of it
stands for not returning.
-/

namespace Blastit.Fw.Slink

open Blastit.Lib.Links

abbrev Ptr := BitVec 32

/-- What is stored at an address, read as a `display_task_data`; a `display_slink` is the
first part of it. -/
structure Node where
  nonce : BitVec 32
  next : Ptr
  done : BitVec 8
  init : BitVec 32
  update : BitVec 32

abbrev Mem := Ptr → Node

def slinkNonce : BitVec 32 := 0xc0c0c0c0

def displaySlinkNext (m : Mem) (x : Ptr) : Ptr :=
  if x ≠ 0 then
    if (m x).nonce = slinkNonce then (m x).next else 0
  else 0

def displaySlinkLast (m : Mem) (x : Ptr) : Bool :=
  if x ≠ 0 then
    if (m x).nonce = slinkNonce then decide ((m x).next = 0) else true
  else true

/-- How the loop of `display_slink_add` ends: at `y`, or with `sl` where it stopped. -/
inductive Walk
  | found
  | stopped (sl : Ptr)

/-- The loop of `display_slink_add`, which moves `*x` along; its end and the last `*x`. -/
def addWalk (m : Mem) (y : Ptr) : ℕ → Ptr → Option (Walk × Ptr)
  | 0, _ => none
  | k + 1, x =>
    if x = y then some (.found, x)
    else
      let x' := displaySlinkNext m x
      if displaySlinkLast m x' then some (.stopped x, x') else addWalk m y k x'

/-- The three stores through `n`. -/
def initNode (m : Mem) (n : Ptr) : Mem :=
  Function.update m n { m n with done := 0, next := 0, nonce := slinkNonce }

/-- `sl->next = n`. -/
def setNext (m : Mem) (sl n : Ptr) : Mem := Function.update m sl { m sl with next := n }

/-- `display_slink_add`, with `x` for `*x`: what it returns, the new `*x` and the memory. -/
def displaySlinkAdd (slot : Ptr) (fuel : ℕ) (m : Mem) (x y : Ptr) : Option (Ptr × Ptr × Mem) :=
  if x = 0 then some (slot, slot, initNode m slot)
  else
    match addWalk m y fuel x with
    | none => none
    | some (.found, x') => some (y, x', m)
    | some (.stopped sl, x') =>
      if (m sl).nonce = slinkNonce then
        some (slot, slot, setNext (initNode m slot) sl slot)
      else some (x', x', m)

def compactStart (m : Mem) : ℕ → Ptr → Option Ptr
  | 0, _ => none
  | k + 1, x =>
    if x = 0 then some x
    else if (m x).nonce = slinkNonce ∧ (m x).done ≠ 0 then compactStart m k (m x).next
    else compactStart m k x

/-- The inner loop of the second one; it looks at the same link in every round. -/
def skipDone (m : Mem) (x : Ptr) : ℕ → Option Ptr
  | 0 => none
  | k + 1 =>
    let nr := displaySlinkNext m x
    if nr ≠ 0 ∧ (m nr).done ≠ 0 then skipDone m x k else some nr

def compactRest (x : Ptr) : ℕ → Mem → Ptr → Option Mem
  | 0, _, _ => none
  | k + 1, m, n =>
    if n = 0 then some m
    else
      match skipDone m x k with
      | none => none
      | some nr => compactRest x k (setNext m n nr) nr

/-- `display_slink_compact`, with `x` for `*x`. -/
def displaySlinkCompact (fuel : ℕ) (m : Mem) (x : Ptr) : Option (Ptr × Mem) :=
  match compactStart m fuel x with
  | none => none
  | some x' => (compactRest x' fuel m x').map fun m' => (x', m')

/-- The list reached from `x` through `display_slink_next`. -/
def Lists (m : Mem) (x : Ptr) (l : List Ptr) : Prop := Chain 0 (displaySlinkNext m) x l

/-! ### What the operations do -/

section
variable {slot x y r x' : Ptr} {m m' : Mem} {k : ℕ}

@[simp] lemma next_initNode_self : (initNode m slot slot).next = 0 := by simp [initNode]

lemma next_initNode (m : Mem) (slot p : Ptr) : (initNode m slot p).next = 0 ∨
    (initNode m slot p).next = (m p).next := by
  by_cases hp : p = slot
  · subst hp
    exact Or.inl next_initNode_self
  · exact Or.inr (by rw [initNode, Function.update_of_ne hp])

lemma next_setNext (p n : Ptr) : (setNext m x n p).next = n ∨
    (setNext m x n p).next = (m p).next := by
  by_cases hp : p = x
  · subst hp
    exact Or.inl (by simp [setNext])
  · exact Or.inr (by rw [setNext, Function.update_of_ne hp])

lemma displaySlinkNext_eq (m : Mem) (x : Ptr) :
    displaySlinkNext m x = 0 ∨ displaySlinkNext m x = (m x).next := by
  unfold displaySlinkNext
  split_ifs
  · exact Or.inr rfl
  · exact Or.inl rfl
  · exact Or.inl rfl

/-- The walk meets nothing but its start and what the links hold. -/
lemma addWalk_closed {S : Ptr → Prop} (h0 : S 0) (hm : ∀ p, S (m p).next) {e : Walk × Ptr} :
    ∀ {k x}, S x → addWalk m y k x = some e → S e.2
  | 0, _, _, h => by cases h
  | k + 1, x, hx, h => by
    have hnext : S (displaySlinkNext m x) := by
      rcases displaySlinkNext_eq m x with hn | hn
      · rwa [hn]
      · rw [hn]
        exact hm x
    simp only [addWalk] at h
    split at h
    · cases h
      exact hx
    · split at h
      · cases h
        exact hnext
      · exact addWalk_closed h0 hm hnext h

lemma addWalk_found : ∀ {k x}, addWalk m y k x = some (.found, x') → x' = y
  | 0, _, h => by cases h
  | k + 1, x, h => by
    simp only [addWalk] at h
    split at h
    · next hxy =>
      cases h
      exact hxy
    · split at h
      · cases h
      · exact addWalk_found h

/-- **`display_slink_add` links nothing but its stack slot**: a set of addresses that holds
the slot, null, the list's start and every link still does afterwards, and holds what the
call returns. -/
theorem displaySlinkAdd_closed {S : Ptr → Prop} (h0 : S 0) (hslot : S slot) (hx : S x)
    (hm : ∀ p, S (m p).next) (h : displaySlinkAdd slot k m x y = some (r, x', m')) :
    S r ∧ S x' ∧ ∀ p, S (m' p).next := by
  have hinit : ∀ p, S (initNode m slot p).next := by
    intro p
    rcases next_initNode m slot p with hp | hp
    · rwa [hp]
    · rw [hp]
      exact hm p
  unfold displaySlinkAdd at h
  split at h
  · cases h
    exact ⟨hslot, hslot, hinit⟩
  · split at h
    · cases h
    · next e he =>
      cases h
      have hx' : S x' := addWalk_closed h0 hm hx he
      rw [← addWalk_found he]
      exact ⟨hx', hx', hm⟩
    · next sl e he =>
      have he' : S e := addWalk_closed h0 hm hx he
      split at h
      · cases h
        refine ⟨hslot, hslot, fun p => ?_⟩
        rcases next_setNext (m := initNode m slot) (x := sl) p slot with hp | hp
        · rwa [hp]
        · rw [hp]
          exact hinit p
      · cases h
        exact ⟨he', he', hm⟩

/-- The first loop of `display_slink_compact` ends at null only. -/
lemma compactStart_eq_zero : ∀ {k x}, compactStart m k x = some x' → x' = 0
  | 0, _, h => by cases h
  | k + 1, x, h => by
    simp only [compactStart] at h
    split at h
    · next hx =>
      cases h
      exact hx
    · split at h
      · exact compactStart_eq_zero h
      · exact compactStart_eq_zero h

/-- **`display_slink_compact` does not return before the list is empty.** -/
theorem displaySlinkCompact_eq_zero (h : displaySlinkCompact k m x = some (x', m')) : x' = 0 := by
  unfold displaySlinkCompact at h
  split at h
  · cases h
  · next z hz =>
    rw [Option.map_eq_some_iff] at h
    obtain ⟨_, _, he⟩ := h
    cases he
    exact compactStart_eq_zero hz

end

end Blastit.Fw.Slink
