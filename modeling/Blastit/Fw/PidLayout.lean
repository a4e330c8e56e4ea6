import Blastit.Fw.PidParser

/-!
How a text falls into lines and tokens, as the decoder takes it, and what that says about
the rest of a text in the middle of a run.
-/

namespace Blastit.Fw.PidParser

open Blastit.Lib.Text Blastit.Fw.Uart

/-! ### Layouts -/

/-- What the decoder takes note of, in order. -/
inductive Item
  | header | token
  deriving DecidableEq

/-- `r` begins with the header of a line, with `t` after it: there is a colon before the
line end. -/
def Header (r t : List Byte) : Prop :=
  ∃ pre, r = pre ++ 0x3a :: t ∧ 0x3a ∉ pre ∧ 0x0d ∉ pre ∧ 0x0d ∈ t

def Blank (c : Byte) : Prop := c = 0x20 ∨ c = 0x09

/-- A character a token begins with. -/
def Mark (c : Byte) : Prop := c ≠ 0x0d ∧ ¬ Blank c

/-- A text that falls into headers, line ends, blanks and tokens of three characters each,
whatever the last two are; what is left over is a single character. A line without a header
has no line end, or some colon later than its end. The flag says whether a line begins. -/
inductive Layout : Bool → List Byte → List Item → Prop
  | header {r t items} (h : Header r t) (ht : Layout false t items) :
    Layout true r (.header :: items)
  | plain {r items} (hno : ∀ t, ¬ Header r t) (hcolon : 0x0d ∈ r → 0x3a ∈ r)
    (hr : Layout false r items) : Layout true r items
  | eol {t items} (ht : Layout true t items) : Layout false (0x0d :: t) items
  | blank {c t items} (hc : Blank c) (ht : Layout false t items) : Layout false (c :: t) items
  | token {a b c t items} (ha : Mark a) (ht : Layout false t items) :
    Layout false (a :: b :: c :: t) (.token :: items)
  | last {c} (hc : Mark c) : Layout false [c] []
  | done : Layout false [] []

/-- The tokens of records: all but the first after a header, which is a length. -/
def counted : List Item → ℕ
  | [] => 0
  | .token :: items => counted items + 1
  | .header :: items => items.count .token - 1

/-- What the loop knows of the length: no header yet, a header but no token after it, or
skipped. -/
inductive Skip
  | none | pending | skipped
  deriving DecidableEq

namespace Skip

def header : Skip → Skip
  | .none => .pending
  | k => k

def token : Skip → Skip
  | .pending => .skipped
  | k => k

def cost : Skip → ℕ
  | .pending => 0
  | _ => 1

end Skip

/-- The tokens of records from the middle of a text on. -/
def countedFrom : Skip → List Item → ℕ
  | _, [] => 0
  | k, .header :: items => countedFrom k.header items
  | k, .token :: items => k.cost + countedFrom k.token items

lemma countedFrom_skipped (items : List Item) : countedFrom .skipped items = items.count .token := by
  induction items with
  | nil => rfl
  | cons i items ih =>
    cases i with
    | header => simpa [countedFrom, Skip.header] using ih
    | token => simp [countedFrom, Skip.token, Skip.cost, ih, Nat.add_comm]

lemma countedFrom_pending (items : List Item) :
    countedFrom .pending items = items.count .token - 1 := by
  induction items with
  | nil => rfl
  | cons i items ih =>
    cases i with
    | header => simpa [countedFrom, Skip.header] using ih
    | token => simp [countedFrom, Skip.token, Skip.cost, countedFrom_skipped]

lemma countedFrom_none (items : List Item) : countedFrom .none items = counted items := by
  induction items with
  | nil => rfl
  | cons i items ih =>
    cases i with
    | header => exact countedFrom_pending items
    | token =>
      show 1 + countedFrom .none items = counted items + 1
      rw [ih, Nat.add_comm]

/-! ### What is left of a text -/

/-- The rest `r` of a text has a layout, and with `n` tokens before it there are at most
ten. -/
def Fits (b : Bool) (k : Skip) (n : ℕ) (r : List Byte) : Prop :=
  ∃ items, Layout b r items ∧ n + countedFrom k items ≤ 2 * pidStorageSize

section
variable {k : Skip} {n : ℕ} {r t t' : List Byte} {a b c : Byte}

lemma Header.unique (h : Header r t) (h' : Header r t') : t = t' := by
  obtain ⟨pre, rfl, hpre, -, -⟩ := h
  obtain ⟨pre', heq, hpre', -, -⟩ := h'
  have hlen : some pre.length = some pre'.length := by
    rw [← strstr_append hpre t, heq, strstr_append hpre' t']
  exact List.tail_eq_of_cons_eq (List.append_inj heq (Option.some.inj hlen)).2

lemma not_header (h : (0x0d : Byte) ∉ r) (t : List Byte) : ¬ Header r t := by
  rintro ⟨pre, rfl, -, -, hend⟩
  exact h (List.mem_append_right pre (List.mem_cons_of_mem _ hend))

/-- The headers of a text with a line end. -/
lemma header_or_not (hend : (0x0d : Byte) ∈ r) (hcolon : (0x3a : Byte) ∈ r) :
    (∃ t, Header r t) ∨ ∃ line t, r = line ++ 0x0d :: t ∧ 0x3a ∉ line ∧ 0x0d ∉ line ∧ 0x3a ∈ t := by
  obtain ⟨line, t, rfl, hline⟩ := List.eq_append_cons_of_mem hend
  by_cases hin : (0x3a : Byte) ∈ line
  · obtain ⟨pre, mid, rfl, hpre⟩ := List.eq_append_cons_of_mem hin
    have hpre' : (0x0d : Byte) ∉ pre := fun h => hline (List.mem_append_left _ h)
    exact Or.inl ⟨mid ++ 0x0d :: t, pre, by simp, hpre, hpre', by simp⟩
  · have ht : (0x3a : Byte) ∈ 0x0d :: t := (List.mem_append.mp hcolon).resolve_left hin
    exact Or.inr ⟨line, t, rfl, hin, hline, List.mem_of_ne_of_mem (by decide) ht⟩

lemma Mark.ne_blank (h : Mark c) : c ≠ 0x20 ∧ c ≠ 0x09 :=
  ⟨fun he => h.2 (Or.inl he), fun he => h.2 (Or.inr he)⟩

lemma not_blank_eol : ¬ Blank 0x0d := by
  unfold Blank
  decide

lemma fits_of_no_items (h : Layout false r []) : Fits false k n r ↔ n ≤ 2 * pidStorageSize := by
  constructor
  · rintro ⟨items, -, hn⟩
    omega
  · intro hn
    exact ⟨[], h, hn⟩

lemma fits_nil : Fits false k n [] ↔ n ≤ 2 * pidStorageSize := fits_of_no_items .done

lemma fits_header (h : Header r t) : Fits true k n r ↔ Fits false k.header n t := by
  constructor
  · rintro ⟨items, hl, hn⟩
    cases hl with
    | header h' ht => exact ⟨_, h.unique h' ▸ ht, hn⟩
    | plain hno _ _ => exact absurd h (hno t)
  · rintro ⟨items, hl, hn⟩
    exact ⟨_, .header h hl, hn⟩

lemma fits_plain (hno : ∀ t, ¬ Header r t) (hcolon : (0x0d : Byte) ∈ r → (0x3a : Byte) ∈ r) :
    Fits true k n r ↔ Fits false k n r := by
  constructor
  · rintro ⟨items, hl, hn⟩
    cases hl with
    | header h _ => exact absurd h (hno _)
    | plain _ _ hr => exact ⟨_, hr, hn⟩
  · rintro ⟨items, hl, hn⟩
    exact ⟨_, .plain hno hcolon hl, hn⟩

lemma not_fits_of_colon (hend : (0x0d : Byte) ∈ r) (hcolon : (0x3a : Byte) ∉ r) :
    ¬ Fits true k n r := by
  rintro ⟨items, hl, -⟩
  cases hl with
  | header h _ =>
    obtain ⟨pre, rfl, -⟩ := h
    exact hcolon (by simp)
  | plain _ hc _ => exact hcolon (hc hend)

lemma fits_eol : Fits false k n (0x0d :: t) ↔ Fits true k n t := by
  constructor
  · rintro ⟨items, hl, hn⟩
    cases hl with
    | eol ht => exact ⟨_, ht, hn⟩
    | blank hc _ => exact absurd hc not_blank_eol
    | token ha _ => exact absurd rfl ha.1
    | last hc => exact absurd rfl hc.1
  · rintro ⟨items, hl, hn⟩
    exact ⟨_, .eol hl, hn⟩

lemma fits_blank (hc : Blank c) : Fits false k n (c :: t) ↔ Fits false k n t := by
  constructor
  · rintro ⟨items, hl, hn⟩
    cases hl with
    | eol _ => exact absurd hc not_blank_eol
    | blank _ ht => exact ⟨_, ht, hn⟩
    | token ha _ => exact absurd hc ha.2
    | last hc' => exact absurd hc hc'.2
  · rintro ⟨items, hl, hn⟩
    exact ⟨_, .blank hc hl, hn⟩

lemma fits_token (ha : Mark a) :
    Fits false k n (a :: b :: c :: t) ↔ Fits false k.token (n + k.cost) t := by
  constructor
  · rintro ⟨items, hl, hn⟩
    cases hl with
    | eol _ => exact absurd rfl ha.1
    | blank hc _ => exact absurd hc ha.2
    | token _ ht => exact ⟨_, ht, by rwa [Nat.add_assoc]⟩
  · rintro ⟨items, hl, hn⟩
    exact ⟨_, .token ha hl, by rwa [Nat.add_assoc] at hn⟩

lemma not_fits_two (ha : Mark a) : ¬ Fits false k n [a, b] := by
  rintro ⟨items, hl, -⟩
  cases hl with
  | eol _ => exact ha.1 rfl
  | blank hc _ => exact ha.2 hc

lemma fits_last (ha : Mark a) : Fits false k n [a] ↔ n ≤ 2 * pidStorageSize :=
  fits_of_no_items (.last ha)

end

end Blastit.Fw.PidParser
