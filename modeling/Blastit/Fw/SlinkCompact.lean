import Blastit.Fw.Slink

/-!
What `display_slink_compact` does to a list, for every list and every pattern of done flags.

The first loop moves `*x` on at a node that is done and nowhere else, so it stays at the first
one that is not. It is left at the end of the list only, where the second loop has nothing to
do.
-/

namespace Blastit.Fw.Slink

open Blastit.Lib.Links

/-- The nodes that are done are to leave the list at `x`, and nothing but links to change:
`*x` and the memory after the call. -/
structure Compacts (m : Mem) (x : Ptr) (l : List Ptr) (x' : Ptr) (m' : Mem) : Prop where
  lists : Lists m' x' (l.filter fun n => (m n).done = 0)
  payload : ∀ n ∈ l, { m' n with next := (m n).next } = m n
  idempotent : ∃ k, displaySlinkCompact k m' x' = some (x', m')
  identity : (∀ n ∈ l, (m n).done = 0) → x' = x ∧ m' = m

section
variable {x x' : Ptr} {m m' : Mem} {k : ℕ} {l : List Ptr}

lemma displaySlinkNext_tagged (hx : x ≠ 0) (htag : (m x).nonce = slinkNonce) :
    displaySlinkNext m x = (m x).next := by
  rw [displaySlinkNext, if_pos hx, if_pos htag]

/-- The first loop passes nodes that are done only. -/
lemma done_of_compactStart (hl : Lists m x l) (htag : ∀ n ∈ l, (m n).nonce = slinkNonce)
    (h : compactStart m k x = some x') : ∀ n ∈ l, (m n).done ≠ 0 := by
  induction k generalizing x l with
  | zero => cases h
  | succ k ih =>
    cases hl with
    | nil => exact fun n hn => absurd hn List.not_mem_nil
    | @cons _ l hx hl =>
      have hxtag : (m x).nonce = slinkNonce := htag x List.mem_cons_self
      simp only [compactStart, if_neg hx, hxtag, true_and] at h
      by_cases hdone : (m x).done = 0
      · -- a round that changes nothing
        rw [if_neg (not_not.mpr hdone)] at h
        exact ih (.cons hx hl) htag h
      · rw [if_pos hdone] at h
        rw [displaySlinkNext_tagged hx hxtag] at hl
        intro n hn
        rcases List.mem_cons.mp hn with rfl | hn
        · exact hdone
        · exact ih hl (fun n hn => htag n (List.mem_cons_of_mem _ hn)) h n hn

lemma compactStart_of_done (hl : Lists m x l) (htag : ∀ n ∈ l, (m n).nonce = slinkNonce)
    (hdone : ∀ n ∈ l, (m n).done ≠ 0) : compactStart m (l.length + 1) x = some 0 := by
  induction hl with
  | nil => simp [compactStart]
  | @cons x l hx _ ih =>
    have hxtag : (m x).nonce = slinkNonce := htag x List.mem_cons_self
    have hxdone : (m x).done ≠ 0 := hdone x List.mem_cons_self
    rw [List.length_cons, compactStart, if_neg hx, if_pos ⟨hxtag, hxdone⟩]
    rw [displaySlinkNext_tagged hx hxtag] at ih
    exact ih (fun n hn => htag n (List.mem_cons_of_mem _ hn))
      fun n hn => hdone n (List.mem_cons_of_mem _ hn)

lemma compactRest_zero (x : Ptr) (m : Mem) : compactRest x (k + 1) m 0 = some m := by
  simp [compactRest]

lemma displaySlinkCompact_of_done (hl : Lists m x l) (htag : ∀ n ∈ l, (m n).nonce = slinkNonce)
    (hdone : ∀ n ∈ l, (m n).done ≠ 0) :
    displaySlinkCompact (l.length + 1) m x = some (0, m) := by
  rw [displaySlinkCompact, compactStart_of_done hl htag hdone]
  simp only [compactRest_zero, Option.map_some]

lemma displaySlinkCompact_null (m : Mem) : displaySlinkCompact 1 m 0 = some (0, m) := by
  simp [displaySlinkCompact, compactStart, compactRest]

/-- **A call returns exactly if every node is done.** -/
theorem displaySlinkCompact_returns_iff (hl : Lists m x l)
    (htag : ∀ n ∈ l, (m n).nonce = slinkNonce) :
    (∃ k r, displaySlinkCompact k m x = some r) ↔ ∀ n ∈ l, (m n).done ≠ 0 := by
  constructor
  · rintro ⟨k, r, h⟩
    unfold displaySlinkCompact at h
    split at h
    · cases h
    · next z hz => exact done_of_compactStart hl htag hz
  · intro hdone
    exact ⟨l.length + 1, (0, m), displaySlinkCompact_of_done hl htag hdone⟩

/-- **`display_slink_compact` compacts a list exactly if every node of it is done.** With one
that is not, it does not return. -/
theorem compacts_iff_all_done (hl : Lists m x l) (htag : ∀ n ∈ l, (m n).nonce = slinkNonce) :
    (∃ k x' m', displaySlinkCompact k m x = some (x', m') ∧ Compacts m x l x' m') ↔
      ∀ n ∈ l, (m n).done ≠ 0 := by
  constructor
  · rintro ⟨k, x', m', h, -⟩
    exact (displaySlinkCompact_returns_iff hl htag).mp ⟨k, _, h⟩
  · intro hdone
    have hnone : (l.filter fun n => (m n).done = 0) = [] :=
      List.filter_eq_nil_iff.mpr fun n hn => by simpa using hdone n hn
    refine ⟨l.length + 1, 0, m, displaySlinkCompact_of_done hl htag hdone, ?_, fun n _ => rfl,
      ⟨1, displaySlinkCompact_null m⟩, fun hkept => ?_⟩
    · rw [hnone]
      exact .nil
    · cases hl with
      | nil => exact ⟨rfl, rfl⟩
      | cons hx _ => exact absurd (hkept x List.mem_cons_self) (hdone x List.mem_cons_self)

end

/-- Three nodes that are done, at 1, 2 and 3. -/
def doneNodes : Mem := fun n => ⟨slinkNonce, if n = 3 then 0 else n + 1, 1, 0, 0⟩

lemma lists_doneNodes : Lists doneNodes 1 [1, 2, 3] :=
  .cons (by decide) (.cons (by decide) (.cons (by decide) .nil))

theorem compacts_done_nodes :
    ∃ k x' m', displaySlinkCompact k doneNodes 1 = some (x', m') ∧
      Compacts doneNodes 1 [1, 2, 3] x' m' :=
  (compacts_iff_all_done lists_doneNodes fun _ _ => rfl).mpr fun _ _ =>
    (by decide : (1 : BitVec 8) ≠ 0)

def oneNode (done : BitVec 8) : Mem :=
  Function.update (fun _ => ⟨0, 0, 0, 0, 0⟩) 1 ⟨slinkNonce, 0, done, 0, 0⟩

lemma lists_oneNode (done : BitVec 8) : Lists (oneNode done) 1 [1] :=
  .cons (by decide) (by simpa [displaySlinkNext, oneNode] using Chain.nil)

/-- A list with nothing to compact. -/
theorem not_compacts_kept_node :
    Lists (oneNode 0) 1 [1] ∧ (∀ n ∈ [1], (oneNode 0 n).nonce = slinkNonce) ∧
      ¬ ∃ k x' m', displaySlinkCompact k (oneNode 0) 1 = some (x', m') ∧
        Compacts (oneNode 0) 1 [1] x' m' := by
  have htag : ∀ n ∈ [1], (oneNode 0 n).nonce = slinkNonce := by simp [oneNode]
  refine ⟨lists_oneNode 0, htag, ?_⟩
  rintro ⟨k, x', m', h, -⟩
  have hdone := (displaySlinkCompact_returns_iff (lists_oneNode 0) htag).mp ⟨k, _, h⟩
  exact hdone 1 (by simp) (by simp [oneNode])

end Blastit.Fw.Slink
