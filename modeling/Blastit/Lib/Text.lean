import Mathlib.Data.BitVec
import Mathlib.Data.List.Infix
import Mathlib.Data.List.TakeWhile
import Mathlib.Tactic.Common

/-!
C strings: the characters before the NUL, searched with `strstr`.
-/

namespace Blastit.Lib.Text

abbrev Byte := BitVec 8

/-- The characters of a literal. -/
def ascii (s : String) : List Byte := s.toList.map fun c => BitVec.ofNat 8 c.toNat

/-- The string in a buffer: what stands before its first NUL. -/
def cstr (buf : List Byte) : List Byte := buf.takeWhile (· ≠ 0)

section
variable {α : Type*} [DecidableEq α]

/-- Where `pat` first starts in `s`. -/
def strstr (s pat : List α) : Option ℕ := s.tails.findIdx? fun t => pat.isPrefixOf t

variable {s pat : List α} {c : α}

lemma strstr_eq_none (hc : c ∈ pat) (hs : c ∉ s) : strstr s pat = none := by
  unfold strstr
  rw [List.findIdx?_eq_none_iff]
  intro t ht
  rw [List.mem_tails] at ht
  rw [Bool.eq_false_iff]
  intro hpat
  have hin : c ∈ t := (List.isPrefixOf_iff_prefix.mp hpat).subset hc
  exact hs (ht.subset hin)

lemma strstr_append (hs : c ∉ s) (t : List α) : strstr (s ++ c :: t) [c] = some s.length := by
  induction s with
  | nil => simp [strstr, List.findIdx?_cons]
  | cons a s ih =>
    have ha : ¬ c = a := fun h => hs (h ▸ List.mem_cons_self)
    have ht := ih fun h => hs (List.mem_cons_of_mem a h)
    unfold strstr at ht ⊢
    rw [List.cons_append, List.tails_cons, List.findIdx?_cons, ht]
    simp [List.isPrefixOf, ha]

end

lemma not_mem_cstr (buf : List Byte) : (0 : Byte) ∉ cstr buf := by
  intro h
  have := List.mem_takeWhile_imp h
  simp at this

lemma cstr_append_nul {t : List Byte} (h : (0 : Byte) ∉ t) (z : List Byte) :
    cstr (t ++ 0 :: z) = t := by
  induction t with
  | nil => simp [cstr]
  | cons c t ih =>
    have hc : c ≠ 0 := fun h0 => h (h0 ▸ List.mem_cons_self)
    have ht := ih fun h0 => h (List.mem_cons_of_mem c h0)
    unfold cstr at ht ⊢
    rw [List.cons_append, List.takeWhile_cons_of_pos (by simpa using hc), ht]

lemma cstr_append_zeros {t : List Byte} (h : (0 : Byte) ∉ t) (n : ℕ) :
    cstr (t ++ List.replicate n 0) = t := by
  cases n with
  | zero =>
    rw [List.replicate_zero, List.append_nil, cstr, List.takeWhile_eq_self_iff]
    intro c hc
    simpa using fun h0 : c = 0 => h (h0 ▸ hc)
  | succ n => exact cstr_append_nul h _

lemma cstr_eq_self {t : List Byte} (h : (0 : Byte) ∉ t) : cstr t = t := by
  simpa using cstr_append_zeros h 0

/-! ### Strings in arrays -/

/-- The string `s` begins at place `i` of an array, and its NUL is in the array. -/
structure StringAt (a : List Byte) (i : ℕ) (s : List Byte) : Prop where
  free : (0 : Byte) ∉ s
  rest : ∃ z, a.drop i = s ++ 0 :: z

section
variable {a s t z : List Byte} {i : ℕ} {c : Byte}

lemma stringAt_append (h : (0 : Byte) ∉ s) (z : List Byte) : StringAt (s ++ 0 :: z) 0 s :=
  ⟨h, z, List.drop_zero⟩

namespace StringAt

lemma cstr_drop (h : StringAt a i s) : cstr (a.drop i) = s := by
  obtain ⟨hfree, z, hrest⟩ := h
  rw [hrest, cstr_append_nul hfree]

lemma mem_drop (h : StringAt a i s) : (0 : Byte) ∈ a.drop i := by
  obtain ⟨-, z, hrest⟩ := h
  rw [hrest]
  exact List.mem_append_right _ List.mem_cons_self

lemma lt_length (h : StringAt a i s) : i + s.length < a.length := by
  obtain ⟨-, z, hrest⟩ := h
  have hlen := congrArg List.length hrest
  rw [List.length_drop, List.length_append, List.length_cons] at hlen
  omega

lemma skip (h : StringAt a i (t ++ s)) : StringAt a (i + t.length) s := by
  obtain ⟨hfree, z, hrest⟩ := h
  refine ⟨fun h0 => hfree (List.mem_append_right _ h0), z, ?_⟩
  rw [← List.drop_drop, hrest, List.append_assoc, List.drop_left]

lemma tail (h : StringAt a i (c :: s)) : StringAt a (i + 1) s := skip (t := [c]) h

lemma getElem?_cons (h : StringAt a i (c :: s)) : a[i]? = some c := by
  obtain ⟨-, z, hrest⟩ := h
  rw [← List.head?_drop, hrest]
  rfl

lemma getElem?_nil (h : StringAt a i []) : a[i]? = some 0 := by
  obtain ⟨-, z, hrest⟩ := h
  rw [← List.head?_drop, hrest]
  rfl

lemma add_length (h : StringAt (t ++ [0]) i s) (ht : (0 : Byte) ∉ t) : i + s.length = t.length := by
  have hlt := h.lt_length
  obtain ⟨-, z, hrest⟩ := h
  rw [List.length_append, List.length_singleton] at hlt
  rw [List.drop_append_of_le_length (by omega)] at hrest
  have hz : z = [] := by
    by_contra hne
    have hlast := congrArg List.dropLast hrest
    rw [List.dropLast_concat, List.dropLast_append_cons, List.dropLast_cons_of_ne_nil hne] at hlast
    refine ht (List.mem_of_mem_drop (i := i) ?_)
    rw [hlast]
    exact List.mem_append_right _ List.mem_cons_self
  have hlen := congrArg List.length hrest
  rw [hz] at hlen
  simp only [List.length_append, List.length_drop, List.length_singleton] at hlen
  omega

end StringAt

end

end Blastit.Lib.Text
