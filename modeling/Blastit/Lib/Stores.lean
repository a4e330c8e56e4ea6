import Mathlib.Data.List.Basic
import Mathlib.Logic.Function.Basic

/-!
A map after a list of stores, each a key and a value.
-/

namespace Blastit.Lib.Stores

variable {κ β : Type*} [DecidableEq κ] {m : κ → β} {l : List (κ × β)} {k : κ} {v : β}

def stores (m : κ → β) (l : List (κ × β)) : κ → β :=
  l.foldl (fun m e => Function.update m e.1 e.2) m

@[simp] lemma stores_nil (m : κ → β) : stores m [] = m := rfl

lemma stores_cons (m : κ → β) (e : κ × β) (l : List (κ × β)) :
    stores m (e :: l) = stores (Function.update m e.1 e.2) l := rfl

lemma stores_of_not_mem (h : ∀ e ∈ l, e.1 ≠ k) : stores m l k = m k := by
  induction l generalizing m with
  | nil => rfl
  | cons e l ih =>
    rw [stores_cons, ih fun e' he' => h e' (List.mem_cons_of_mem e he'),
      Function.update_of_ne (h e List.mem_cons_self).symm]

/-- **What all stores to a key agree on is what the key holds.** -/
lemma stores_of_mem (hmem : ∃ e ∈ l, e.1 = k) (h : ∀ e ∈ l, e.1 = k → e.2 = v) :
    stores m l k = v := by
  induction l generalizing m with
  | nil =>
    obtain ⟨e, he, -⟩ := hmem
    exact absurd he List.not_mem_nil
  | cons e l ih =>
    rw [stores_cons]
    by_cases hl : ∃ e ∈ l, e.1 = k
    · exact ih hl fun e' he' => h e' (List.mem_cons_of_mem e he')
    · have hfirst : e.1 = k := by
        obtain ⟨e', he', hk⟩ := hmem
        rcases List.mem_cons.mp he' with rfl | he'
        · exact hk
        · exact absurd ⟨e', he', hk⟩ hl
      rw [stores_of_not_mem fun e' he' hk => hl ⟨e', he', hk⟩, ← hfirst, Function.update_self]
      exact h e List.mem_cons_self hfirst

lemma stores_map {α : Type*} {key : α → κ} {val : α → β} {as : List α} {a : α} (ha : a ∈ as)
    (hkey : ∀ b ∈ as, key b = key a → b = a) :
    stores m (as.map fun b => (key b, val b)) (key a) = val a := by
  refine stores_of_mem ⟨_, List.mem_map_of_mem ha, rfl⟩ fun e he hk => ?_
  obtain ⟨b, hb, rfl⟩ := List.mem_map.mp he
  rw [hkey b hb hk]

lemma stores_map_of_ne {α : Type*} {key : α → κ} {val : α → β} {as : List α}
    (h : ∀ b ∈ as, key b ≠ k) : stores m (as.map fun b => (key b, val b)) k = m k := by
  refine stores_of_not_mem fun e he => ?_
  obtain ⟨b, hb, rfl⟩ := List.mem_map.mp he
  exact h b hb

end Blastit.Lib.Stores
