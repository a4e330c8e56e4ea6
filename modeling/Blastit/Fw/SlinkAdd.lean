import Blastit.Fw.Slink

/-!
What `display_slink_add` does to a list, for every list and node.

It returns on every list, and then with the node it was given only if it has met it before
the last one; `*x` is then where the walk has come to. All else ends in its own stack slot.
-/

namespace Blastit.Fw.Slink

open Blastit.Lib.Links

/-- A node is to be added at the end of the list at `x`, once: what the call returns, `*x` and
the memory after it. -/
structure Adds (m : Mem) (x : Ptr) (l : List Ptr) (y : Ptr) (r x' : Ptr) (m' : Mem) : Prop where
  returned : r = y
  present : y ∈ l → x' = x ∧ m' = m
  lists : y ∉ l → Lists m' x' (l ++ [y])
  node : y ∉ l → m' y = { m y with done := 0, next := 0, nonce := slinkNonce }
  last : y ∉ l → ∀ p ∈ l.getLast?, m' p = { m p with next := y }
  others : y ∉ l → ∀ p ≠ y, p ∉ l.getLast? → m' p = m p

section
variable {slot x y r x' : Ptr} {m m' : Mem} {k : ℕ} {l : List Ptr} {w : Walk}

/-! ### The walk -/

lemma addWalk_self : addWalk m x (k + 1) x = some (.found, x) := by simp [addWalk]

lemma addWalk_stop (hy : x ≠ y) (hlast : displaySlinkLast m (displaySlinkNext m x) = true) :
    addWalk m y (k + 1) x = some (.stopped x, displaySlinkNext m x) := by
  simp [addWalk, hy, hlast]

lemma addWalk_go (hy : x ≠ y) (hlast : displaySlinkLast m (displaySlinkNext m x) = false) :
    addWalk m y (k + 1) x = addWalk m y k (displaySlinkNext m x) := by
  simp [addWalk, hy, hlast]

def Walk.node (y : Ptr) : Walk → Ptr
  | found => y
  | stopped sl => sl

lemma addWalk_mem (hl : Lists m x l) (hx : x ≠ 0) (h : addWalk m y k x = some (w, x')) :
    w.node y ∈ l := by
  induction hl generalizing k with
  | nil => exact absurd rfl hx
  | @cons x l _ _ ih =>
    cases k with
    | zero => cases h
    | succ k =>
      by_cases hy : x = y
      · subst hy
        rw [addWalk_self] at h
        cases h
        exact List.mem_cons_self
      cases hlast : displaySlinkLast m (displaySlinkNext m x) with
      | true =>
        rw [addWalk_stop hy hlast] at h
        cases h
        exact List.mem_cons_self
      | false =>
        rw [addWalk_go hy hlast] at h
        have hnext : displaySlinkNext m x ≠ 0 := by
          intro h0
          rw [h0] at hlast
          cases hlast
        exact List.mem_cons_of_mem x (ih hnext h)

/-- The walk returns on every list. -/
lemma exists_addWalk (hl : Lists m x l) (y : Ptr) : ∃ e, addWalk m y (l.length + 1) x = some e := by
  induction hl with
  | nil =>
    by_cases hy : 0 = y
    · subst hy
      exact ⟨_, addWalk_self⟩
    · exact ⟨_, addWalk_stop hy (by simp [displaySlinkLast, displaySlinkNext])⟩
  | @cons x l _ _ ih =>
    by_cases hy : x = y
    · subst hy
      exact ⟨_, addWalk_self⟩
    cases hlast : displaySlinkLast m (displaySlinkNext m x) with
    | true => exact ⟨_, addWalk_stop hy hlast⟩
    | false =>
      rw [List.length_cons, addWalk_go hy hlast]
      exact ih

/-! ### The call -/

/-- **How a call ends**: at `y` in the list, which it returns with `*x` moved there, or with
its stack slot. -/
lemma displaySlinkAdd_cases (hl : Lists m x l) (htag : ∀ n ∈ l, (m n).nonce = slinkNonce)
    (h : displaySlinkAdd slot k m x y = some (r, x', m')) :
    (r = y ∧ x' = y ∧ y ∈ l ∧ m' = m) ∨ (r = slot ∧ x' = slot) := by
  unfold displaySlinkAdd at h
  split at h
  · cases h
    exact Or.inr ⟨rfl, rfl⟩
  · next hx =>
    split at h
    · cases h
    · next e he =>
      cases h
      have hmem : Walk.found.node y ∈ l := addWalk_mem hl hx he
      exact Or.inl ⟨rfl, addWalk_found he, hmem, rfl⟩
    · next sl e he =>
      have hmem : (Walk.stopped sl).node y ∈ l := addWalk_mem hl hx he
      rw [if_pos (htag sl hmem)] at h
      cases h
      exact Or.inr ⟨rfl, rfl⟩

/-- Every call returns. -/
theorem displaySlinkAdd_returns (slot : Ptr) (hl : Lists m x l) (y : Ptr) :
    ∃ k r x' m', displaySlinkAdd slot k m x y = some (r, x', m') := by
  obtain ⟨⟨w, z⟩, hw⟩ := exists_addWalk hl y
  refine ⟨l.length + 1, ?_⟩
  rw [displaySlinkAdd, hw]
  split
  · exact ⟨_, _, _, rfl⟩
  · cases w with
    | found => exact ⟨_, _, _, rfl⟩
    | stopped sl =>
      dsimp only
      split_ifs
      · exact ⟨_, _, _, rfl⟩
      · exact ⟨_, _, _, rfl⟩

lemma displaySlinkAdd_first (hy : y ≠ 0) : displaySlinkAdd slot 1 m y y = some (y, y, m) := by
  rw [displaySlinkAdd, if_neg hy, addWalk_self]

/-- **`display_slink_add` does what it is for exactly if the node is the first of the list.**
On an empty list, or for a node that is not in it or the last of several, it links and returns
the slot of its parameter; for one in the middle it moves `*x`. -/
theorem adds_iff_first (hl : Lists m x l) (htag : ∀ n ∈ l, (m n).nonce = slinkNonce)
    (hy : y ≠ 0) (hslot : slot ≠ y) :
    (∃ k r x' m', displaySlinkAdd slot k m x y = some (r, x', m') ∧ Adds m x l y r x' m') ↔
      x = y := by
  constructor
  · rintro ⟨k, r, x', m', h, hadds⟩
    obtain ⟨-, rfl, hmem, -⟩ | ⟨rfl, -⟩ := displaySlinkAdd_cases hl htag h
    · exact (hadds.present hmem).1.symm
    · exact absurd hadds.returned hslot
  · rintro rfl
    have hmem : x ∈ l := by
      cases hl with
      | nil => exact absurd rfl hy
      | cons _ _ => exact List.mem_cons_self
    exact ⟨1, x, x, m, displaySlinkAdd_first hy, rfl, fun _ => ⟨rfl, rfl⟩,
      fun h => absurd hmem h, fun h => absurd hmem h, fun h => absurd hmem h,
      fun h => absurd hmem h⟩

end

def twoNodes : Mem :=
  Function.update (Function.update (fun _ => ⟨0, 0, 0, 0, 0⟩) 1 ⟨slinkNonce, 2, 0, 0, 0⟩) 2
    ⟨slinkNonce, 0, 0, 0, 0⟩

lemma lists_twoNodes : Lists twoNodes 1 [1, 2] :=
  .cons (by decide) (.cons (by decide) .nil)

theorem adds_first_again : ∃ k r x' m',
    displaySlinkAdd 4 k twoNodes 1 1 = some (r, x', m') ∧ Adds twoNodes 1 [1, 2] 1 r x' m' :=
  (adds_iff_first lists_twoNodes (by simp [twoNodes]) (by decide) (by decide)).mpr rfl

/-- A node for an empty list, one for two nodes, and the second of these again: each time the
slot of the parameter is returned. -/
theorem not_adds :
    (∃ m', displaySlinkAdd 4 1 twoNodes 0 1 = some (4, 4, m')) ∧
    (∃ m', displaySlinkAdd 4 1 twoNodes 1 3 = some (4, 4, m')) ∧
    (∃ m', displaySlinkAdd 4 1 twoNodes 1 2 = some (4, 4, m')) ∧
    ¬ (∀ m x l, Lists m x l → (∀ n ∈ l, (m n).nonce = slinkNonce) → ∀ y ≠ 0, ∀ slot ≠ y,
      ∃ k r x' m', displaySlinkAdd slot k m x y = some (r, x', m') ∧ Adds m x l y r x' m') := by
  refine ⟨⟨_, rfl⟩, ⟨_, rfl⟩, ⟨_, rfl⟩, fun hall => ?_⟩
  obtain ⟨k, r, x', m', h, hadds⟩ :=
    hall twoNodes 0 [] .nil (fun n hn => nomatch hn) 1 (by decide) 4 (by decide)
  cases h
  cases hadds.returned

end Blastit.Fw.Slink
