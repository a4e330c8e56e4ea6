import Mathlib.Data.List.Basic
import Mathlib.Data.List.Induction
import Mathlib.Tactic.Common

/-!
Cutting a stream of characters into pieces.

A piece ends at the first separator, or where it has reached a largest size without one; a
piece of the largest size is cut off only when another character follows. The cut is made
character by character, so it does not depend on how the stream is handed over: what has
been cut off stays cut off, and the rest is where the next piece begins.
-/

namespace Blastit.Lib.Pieces

variable {α : Type*} {sep : α} {cap : ℕ} {l m s t r r' : List α} {ps qs : List (List α)}

/-! ### Pieces -/

def EndsAt (sep : α) (cap : ℕ) (l : List α) : Prop :=
  ∃ t, l = t ++ [sep] ∧ sep ∉ t ∧ l.length ≤ cap

def Full (sep : α) (cap : ℕ) (l : List α) : Prop := sep ∉ l ∧ l.length = cap

def Begun (sep : α) (cap : ℕ) (l : List α) : Prop := sep ∉ l ∧ l.length ≤ cap

/-- `l` is a piece when `s` follows. -/
def Piece (sep : α) (cap : ℕ) (l s : List α) : Prop :=
  EndsAt sep cap l ∨ (Full sep cap l ∧ s ≠ [])

/-- `ps` are the first pieces of a stream, `r` is what is left of it. -/
inductive Cuts (sep : α) (cap : ℕ) : List (List α) → List α → List α → Prop
  | nil {s : List α} : Cuts sep cap [] s s
  | cons {l s r : List α} {ps : List (List α)} (hl : Piece sep cap l s)
    (h : Cuts sep cap ps s r) : Cuts sep cap (l :: ps) (l ++ s) r

lemma Piece.length_le (h : Piece sep cap l s) : l.length ≤ cap := by
  rcases h with ⟨_, _, _, hle⟩ | ⟨hfull, -⟩
  · exact hle
  · exact Nat.le_of_eq hfull.2

lemma Piece.extend (h : Piece sep cap l s) (t : List α) : Piece sep cap l (s ++ t) := by
  rcases h with h | ⟨h, hs⟩
  · exact .inl h
  · exact .inr ⟨h, by simp [hs]⟩

lemma Cuts.flatten (h : Cuts sep cap ps s r) : ps.flatten ++ r = s := by
  induction h with
  | nil => rfl
  | cons _ _ ih => rw [List.flatten_cons, List.append_assoc, ih]

lemma Cuts.extend (h : Cuts sep cap ps s r) (t : List α) : Cuts sep cap ps (s ++ t) (r ++ t) := by
  induction h with
  | nil => exact .nil
  | cons hl _ ih =>
    rw [List.append_assoc]
    exact .cons (hl.extend t) ih

lemma Cuts.snoc (h : Cuts sep cap ps s (l ++ r)) (hl : Piece sep cap l r) :
    Cuts sep cap (ps ++ [l]) s r := by
  generalize hs : l ++ r = t at h
  induction h with
  | nil =>
    subst hs
    exact .cons hl .nil
  | cons hl' _ ih => exact .cons hl' (ih hs)

/-! ### There is only one cut -/

/-- A piece that ends at a separator is not the beginning of one without. -/
lemma EndsAt.not_prefix (hl : EndsAt sep cap l) (hs : sep ∉ s) : ¬ l <+: s := by
  rintro ⟨t, rfl⟩
  obtain ⟨u, rfl, -, -⟩ := hl
  simp at hs

lemma Piece.eq_of_prefix (hl : Piece sep cap l s) (hm : Piece sep cap m t) (h : l <+: m) :
    l = m := by
  rcases hl with hl | ⟨hl, -⟩
  · rcases hm with ⟨u, rfl, hu, -⟩ | ⟨hm, -⟩
    · rcases List.prefix_concat_iff.mp h with heq | hpre
      · exact heq
      · exact absurd hpre (hl.not_prefix hu)
    · exact absurd h (hl.not_prefix hm.1)
  · exact h.eq_of_length_le (hl.2 ▸ hm.length_le)

lemma Piece.unique (hl : Piece sep cap l s) (hm : Piece sep cap m t) (h : l ++ s = m ++ t) :
    l = m := by
  rcases List.prefix_or_prefix_of_prefix (List.prefix_append l s)
    (h ▸ List.prefix_append m t) with hpre | hpre
  · exact hl.eq_of_prefix hm hpre
  · exact (hm.eq_of_prefix hl hpre).symm

lemma Begun.not_piece (hr : Begun sep cap (l ++ s)) : ¬ Piece sep cap l s := by
  rintro (hl | ⟨hl, hs⟩)
  · exact hl.not_prefix hr.1 (List.prefix_append l s)
  · have hlen := hr.2
    have hpos := List.length_pos_iff.mpr hs
    rw [List.length_append, hl.2] at hlen
    omega

lemma Cuts.eq_cons {p : List α} (h : Cuts sep cap (p :: ps) s r) :
    ∃ t, s = p ++ t ∧ Piece sep cap p t ∧ Cuts sep cap ps t r := by
  cases h with
  | cons hl h => exact ⟨_, rfl, hl, h⟩

/-- **Whatever has been cut off a stream is how its full cut begins.** -/
theorem Cuts.initial (h : Cuts sep cap ps s r) (h' : Cuts sep cap qs s r')
    (hr : Begun sep cap r') : ps <+: qs := by
  induction ps generalizing qs s with
  | nil => exact List.nil_prefix
  | cons p ps ih =>
    obtain ⟨t, rfl, hp, hcut⟩ := h.eq_cons
    cases qs with
    | nil =>
      cases h'
      exact absurd hp hr.not_piece
    | cons q qs =>
      obtain ⟨t', hs, hq, hcut'⟩ := h'.eq_cons
      have heq := hp.unique hq hs
      subst heq
      rw [List.append_cancel_left hs] at hcut
      exact (List.prefix_cons_inj _).mpr (ih hcut hcut')

/-! ### The cut -/

/-- The pieces cut off so far, and the beginning of the next. -/
structure Cut (α : Type*) where
  done : List (List α)
  rest : List α

/-- A full piece is cut off when another character is there. -/
def Cut.release (cap : ℕ) (c : Cut α) : Cut α :=
  if c.rest.length = cap then ⟨c.done ++ [c.rest], []⟩ else c

/-- A cut of the stream that cannot go on. -/
structure Cut.Of (sep : α) (cap : ℕ) (s : List α) (c : Cut α) : Prop where
  cuts : Cuts sep cap c.done s c.rest
  begun : Begun sep cap c.rest

lemma Cut.Of.release {c : Cut α} (h : c.Of sep cap s) (hcap : 0 < cap) (a : α) :
    Cuts sep cap (c.release cap).done (s ++ [a]) ((c.release cap).rest ++ [a]) ∧
      sep ∉ (c.release cap).rest ∧ (c.release cap).rest.length < cap := by
  have hcuts := h.cuts.extend [a]
  unfold Cut.release
  split
  · next hlen =>
    refine ⟨?_, by simp, hcap⟩
    exact hcuts.snoc (.inr ⟨⟨h.begun.1, hlen⟩, by simp⟩)
  · next hlen =>
    have := h.begun.2
    exact ⟨hcuts, h.begun.1, by omega⟩

variable [DecidableEq α]

def Cut.step (sep : α) (cap : ℕ) (c : Cut α) (a : α) : Cut α :=
  let c := c.release cap
  if a = sep then ⟨c.done ++ [c.rest ++ [a]], []⟩ else ⟨c.done, c.rest ++ [a]⟩

def cut (sep : α) (cap : ℕ) (s : List α) : Cut α := s.foldl (Cut.step sep cap) ⟨[], []⟩

def pieces (sep : α) (cap : ℕ) (s : List α) : List (List α) := (cut sep cap s).done

lemma Cut.Of.step {c : Cut α} (h : c.Of sep cap s) (hcap : 0 < cap) (a : α) :
    (c.step sep cap a).Of sep cap (s ++ [a]) := by
  obtain ⟨hcuts, hno, hlt⟩ := h.release hcap a
  have hlen : ((c.release cap).rest ++ [a]).length ≤ cap := by
    rw [List.length_append, List.length_singleton]
    omega
  unfold Cut.step
  dsimp only
  split
  · next ha =>
    subst ha
    refine ⟨?_, by simp, Nat.zero_le _⟩
    rw [← List.append_nil ((c.release cap).rest ++ [a])] at hcuts
    exact hcuts.snoc (.inl ⟨_, rfl, hno, hlen⟩)
  · next ha =>
    refine ⟨hcuts, ?_, hlen⟩
    rw [List.mem_append, List.mem_singleton]
    rintro (hmem | hmem)
    · exact hno hmem
    · exact ha hmem.symm

/-- **The cut of a stream.** -/
theorem of_cut (hcap : 0 < cap) (s : List α) : (cut sep cap s).Of sep cap s := by
  induction s using List.reverseRecOn with
  | nil => exact ⟨.nil, by simp [cut], Nat.zero_le _⟩
  | append_singleton s a ih =>
    rw [cut, List.foldl_append]
    exact ih.step hcap a

/-- Whatever has been cut off a stream are its first pieces. -/
lemma Cuts.initial_pieces (h : Cuts sep cap ps s r) (hcap : 0 < cap) :
    ps <+: pieces sep cap s :=
  h.initial (of_cut hcap s).cuts (of_cut hcap s).begun

end Blastit.Lib.Pieces
