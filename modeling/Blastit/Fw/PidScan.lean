import Blastit.Fw.PidLayout
import Blastit.Lib.Calls

/-!
The loop of the decoder as a scanner, with what is done with its tokens left aside.

A round moves a few variables along the text and may hand over a token; storing that token
is the rest of the round. So the tokens of a text do not depend on the records.
-/

namespace Blastit.Fw.PidParser

open Blastit.Lib.Text Blastit.Lib.Calls Blastit.Fw.Uart

/-! ### The scanner -/

/-- The local variables of `obd2_parse_pid_response` that steer its loop. -/
structure Reader where
  ptr : ℕ
  startLine : Bool
  skipDigit : Bool
  digitSkipped : Bool

def scanStep (str : List Byte) (q : Reader) : Except Fault (Reader × Option (Byte × Byte)) := do
  if q.startLine then
    let next ← strstrFrom str q.ptr (ascii ":")
    let eol ← strstrFrom str q.ptr (ascii "\r")
    if ptrLt next eol then
      match next with
      | none => .error .nullCursor
      | some next =>
        return ({ q with
          startLine := false
          skipDigit := if !q.digitSkipped then true else q.skipDigit
          ptr := next + 1 }, none)
    else return ({ q with startLine := false }, none)
  else
    let ch ← deref str q.ptr
    if ch = 0x0d then return ({ q with startLine := true, ptr := q.ptr + 1 }, none)
    else if ch ≠ 0x20 ∧ ch ≠ 0x09 then
      let ch' ← deref str (q.ptr + 1)
      if ch' ≠ 0 then
        if q.skipDigit then
          return ({ q with skipDigit := false, digitSkipped := true, ptr := q.ptr + 3 }, none)
        else return ({ q with ptr := q.ptr + 3 }, some (ch, ch'))
      else return ({ q with ptr := q.ptr + 1 }, none)
    else return ({ q with ptr := q.ptr + 1 }, none)

/-- `while (*ptr)`: the tokens that reach the storage. -/
def scanLoop (str : List Byte) : ℕ → Reader → Except Fault (List (Byte × Byte))
  | 0, _ => .error .waiting
  | k + 1, q => do
    let ch ← deref str q.ptr
    if ch = 0 then return []
    else
      let (q, token) ← scanStep str q
      let tokens ← scanLoop str k q
      return token.toList ++ tokens

/-! ### The decoder is the scanner with the storage behind it -/

def Cursor.reader (c : Cursor) : Reader := ⟨c.ptr, c.startLine, c.skipDigit, c.digitSkipped⟩

/-- The cursor at another place of the text. -/
def Cursor.goto (c : Cursor) (q : Reader) : Cursor :=
  { c with
    ptr := q.ptr
    startLine := q.startLine
    skipDigit := q.skipDigit
    digitSkipped := q.digitSkipped }

@[simp] lemma Cursor.reader_goto (c : Cursor) (q : Reader) : (c.goto q).reader = q := rfl
@[simp] lemma Cursor.goto_reader (c : Cursor) : c.goto c.reader = c := rfl

def tokenValue (hi lo : Byte) : ℤ := (tohex hi <<< 8 ||| tohex lo : ℕ)

/-- What is done with a token that reaches the storage. -/
def store (c : Cursor) (token : Byte × Byte) : Except Fault Cursor :=
  storeToken (tokenValue token.1 token.2) c

/-- The storage in one round. -/
def storeNext (c : Cursor) : Option (Byte × Byte) → Except Fault Cursor
  | some token => store c token
  | none => .ok c

lemma pidAt_goto (c : Cursor) (q : Reader) : pidAt (c.goto q) = pidAt c := rfl

lemma storeToken_goto (x : ℤ) (c : Cursor) (q : Reader) :
    storeToken x (c.goto q) = (·.goto q) <$> storeToken x c := by
  unfold storeToken
  by_cases hmode : c.pidSize = 0
  · -- the mode of the next record
    rw [if_pos hmode, if_pos (show (c.goto q).pidSize = 0 from hmode)]
    have hat : pidAt { c.goto q with iPid := (c.goto q).iPid + 1, iPidEnd := 0, pidSize := 1 } =
        pidAt { c with iPid := c.iPid + 1, iPidEnd := 0, pidSize := 1 } := rfl
    simp only [hat]
    cases pidAt { c with iPid := c.iPid + 1, iPidEnd := 0, pidSize := 1 } <;> rfl
  rw [if_neg hmode, if_neg (show ¬ (c.goto q).pidSize = 0 from hmode), pidAt_goto]
  cases pidAt c with
  | error e => rfl
  | ok i =>
    have hpids : (c.goto q).pids i = c.pids i := rfl
    have hpid : (c.goto q).iPid = c.iPid := rfl
    have hend : (c.goto q).iPidEnd = c.iPidEnd := rfl
    simp only [bind, Except.bind, hpids, hpid, hend]
    split_ifs <;> rfl

lemma storeToken_reader {x : ℤ} {c c' : Cursor} (h : storeToken x c = .ok c') :
    c'.reader = c.reader := by
  have hgoto := storeToken_goto x c c.reader
  rw [Cursor.goto_reader, h] at hgoto
  rw [Except.ok.inj hgoto, Cursor.reader_goto]

/-- **A round of the decoder is a round of the scanner**, and the token is stored. -/
theorem parseStep_eq (str : List Byte) (c : Cursor) :
    parseStep str c = do
      let (q, token) ← scanStep str c.reader
      let c ← storeNext c token
      return c.goto q := by
  unfold parseStep scanStep
  cases hb : c.startLine with
  | true =>
    simp only [Cursor.reader, hb, if_true]
    cases strstrFrom str c.ptr (ascii ":") with
    | error e => rfl
    | ok next =>
      cases strstrFrom str c.ptr (ascii "\r") with
      | error e => rfl
      | ok eol =>
        simp only [bind, Except.bind]
        by_cases hlt : ptrLt next eol = true
        · rw [if_pos hlt, if_pos hlt]
          cases next <;> rfl
        · rw [if_neg hlt, if_neg hlt]
          rfl
  | false =>
    simp only [Cursor.reader, hb, if_false, Bool.false_eq_true]
    cases deref str c.ptr with
    | error e => rfl
    | ok ch =>
      simp only [bind, Except.bind]
      by_cases heol : ch = 0x0d
      · rw [if_pos heol, if_pos heol]
        rfl
      rw [if_neg heol, if_neg heol]
      by_cases hmark : ch ≠ 0x20 ∧ ch ≠ 0x09
      swap
      · rw [if_neg hmark, if_neg hmark]
        rfl
      rw [if_pos hmark, if_pos hmark]
      cases deref str (c.ptr + 1) with
      | error e => rfl
      | ok ch' =>
        dsimp only
        by_cases h0 : ch' ≠ 0
        swap
        · rw [if_neg h0, if_neg h0]
          rfl
        rw [if_pos h0, if_pos h0]
        cases hskip : c.skipDigit with
        | true => rfl
        | false =>
          -- the only round that hands a token over
          simp only [Bool.false_eq_true, if_false]
          show (storeToken (tokenValue ch ch') c).bind _ = (storeToken (tokenValue ch ch') c).bind _
          cases hstore : storeToken (tokenValue ch ch') c with
          | error e => rfl
          | ok c' =>
            have hreader := storeToken_reader hstore
            simp only [Cursor.reader, Reader.mk.injEq] at hreader
            obtain ⟨hptr, hline, hskip', hskipped⟩ := hreader
            show Except.ok _ = Except.ok _
            simp only [Cursor.goto, hptr, hline, hskip', hskipped, hb, hskip]

/-! ### Rounds -/

/-- The rest of the text, and what the loop knows there. -/
structure At (str r : List Byte) (b : Bool) (k : Skip) (q : Reader) : Prop where
  text : StringAt str q.ptr r
  startLine : q.startLine = b
  skipDigit : q.skipDigit = decide (k = .pending)
  digitSkipped : q.digitSkipped = decide (k = .skipped)

/-- A round that takes the loop to before `r` and hands nothing over. -/
def Passes (str : List Byte) (q : Reader) (r : List Byte) (b : Bool) (k : Skip) : Prop :=
  ∃ q', scanStep str q = .ok (q', none) ∧ At str r b k q'

/-- A length is not handed over. -/
def Skip.taken (k : Skip) (token : Byte × Byte) : Option (Byte × Byte) :=
  if k = .pending then Option.none else token

section
variable {str r t : List Byte} {b : Bool} {k : Skip} {q : Reader} {ch ch' : Byte}

lemma not_mem_middle {u v : List Byte} (hu : ch ∉ u) (hne : ch ≠ ch') (hv : ch ∉ v) :
    ch ∉ u ++ ch' :: v := by
  rw [List.mem_append, List.mem_cons]
  rintro (h | h | h)
  · exact hu h
  · exact hne h
  · exact hv h

namespace At

/-- A line with a header: on behind it. -/
lemma header (h : At str r true k q) (hh : Header r t) : Passes str q t false k.header := by
  obtain ⟨htext, hb, hskip, hdone⟩ := h
  obtain ⟨pre, rfl, hpre, hpre', hend⟩ := hh
  obtain ⟨mid, tail, rfl, hmid⟩ := List.eq_append_cons_of_mem hend
  have hnext : strstrFrom str q.ptr (ascii ":") = .ok (some (q.ptr + pre.length)) :=
    strstrFrom_some htext hpre
  have hline : StringAt str q.ptr ((pre ++ 0x3a :: mid) ++ 0x0d :: tail) := by simpa using htext
  have hline' : (0x0d : Byte) ∉ pre ++ 0x3a :: mid :=
    not_mem_middle hpre' (by decide) hmid
  have heol : strstrFrom str q.ptr (ascii "\r") =
      .ok (some (q.ptr + (pre ++ 0x3a :: mid).length)) :=
    strstrFrom_some hline hline'
  have hlt : ptrLt (some (q.ptr + pre.length)) (some (q.ptr + (pre ++ 0x3a :: mid).length)) =
      true := by
    simp [ptrLt]
  unfold Passes
  simp only [scanStep, hb, if_true, hnext, heol, bind, Except.bind, hlt]
  refine ⟨_, rfl, htext.skip.tail, rfl, ?_, ?_⟩
  · cases k <;> simp [hskip, hdone, Skip.header]
  · cases k <;> simp [hdone, Skip.header]

/-- A line without one: the colon, if there is one, is later. -/
lemma plain (h : At str r true k q) (hno : ∀ t, ¬ Header r t)
    (hcolon : (0x0d : Byte) ∈ r → (0x3a : Byte) ∈ r) : Passes str q r false k := by
  obtain ⟨htext, hb, hskip, hdone⟩ := h
  obtain ⟨next, eol, hnext, heol, hlt⟩ : ∃ next eol,
      strstrFrom str q.ptr (ascii ":") = .ok next ∧ strstrFrom str q.ptr (ascii "\r") = .ok eol ∧
      ptrLt next eol = false := by
    by_cases hend : (0x0d : Byte) ∈ r
    · obtain ⟨line, t, rfl, hline, hline', ht⟩ :=
        (header_or_not hend (hcolon hend)).resolve_left fun ⟨t, hh⟩ => hno t hh
      obtain ⟨mid, tail, rfl, hmid⟩ := List.eq_append_cons_of_mem ht
      have hlater : StringAt str q.ptr ((line ++ 0x0d :: mid) ++ 0x3a :: tail) := by
        simpa using htext
      have hlater' : (0x3a : Byte) ∉ line ++ 0x0d :: mid :=
        not_mem_middle hline (by decide) hmid
      refine ⟨_, _, strstrFrom_some hlater hlater', strstrFrom_some htext hline', ?_⟩
      simp [ptrLt]
    · have heol : strstrFrom str q.ptr (ascii "\r") = .ok none := strstrFrom_none htext hend
      by_cases hin : (0x3a : Byte) ∈ r
      · obtain ⟨pre, t, rfl, hpre⟩ := List.eq_append_cons_of_mem hin
        exact ⟨_, _, strstrFrom_some htext hpre, heol, rfl⟩
      · exact ⟨_, _, strstrFrom_none htext hin, heol, rfl⟩
  unfold Passes
  simp only [scanStep, hb, if_true, hnext, heol, bind, Except.bind, hlt]
  exact ⟨_, rfl, htext, rfl, hskip, hdone⟩

/-- A line end and no colon at all: the null pointer is below any other. -/
lemma null (h : At str r true k q) (hend : (0x0d : Byte) ∈ r) (hcolon : (0x3a : Byte) ∉ r) :
    scanStep str q = .error .nullCursor := by
  obtain ⟨htext, hb, -, -⟩ := h
  have hnext : strstrFrom str q.ptr (ascii ":") = .ok none := strstrFrom_none htext hcolon
  obtain ⟨line, t, rfl, hline⟩ := List.eq_append_cons_of_mem hend
  have heol : strstrFrom str q.ptr (ascii "\r") = .ok (some (q.ptr + line.length)) :=
    strstrFrom_some htext hline
  simp only [scanStep, hb, if_true, hnext, heol, bind, Except.bind, ptrLt]

lemma eol (h : At str (0x0d :: t) false k q) : Passes str q t true k := by
  obtain ⟨htext, hb, hskip, hdone⟩ := h
  unfold Passes
  rw [scanStep, hb, deref_cons htext]
  exact ⟨_, rfl, htext.tail, rfl, hskip, hdone⟩

lemma blank (h : At str (ch :: t) false k q) (hch : Blank ch) : Passes str q t false k := by
  obtain ⟨htext, hb, hskip, hdone⟩ := h
  have hne : ch ≠ 0x0d := fun he => not_blank_eol (he ▸ hch)
  have hnot : ¬ (ch ≠ 0x20 ∧ ch ≠ 0x09) := fun h => hch.elim h.1 h.2
  unfold Passes
  simp only [scanStep, hb, deref_cons htext, bind, Except.bind, hne, hnot, if_false,
    Bool.false_eq_true]
  exact ⟨_, rfl, htext.tail, rfl, hskip, hdone⟩

/-- The last character of a text is left alone. -/
lemma last (h : At str [ch] false k q) (hch : Mark ch) : Passes str q [] false k := by
  obtain ⟨htext, hb, hskip, hdone⟩ := h
  have hmark := hch.ne_blank
  unfold Passes
  simp only [scanStep, hb, deref_cons htext, deref_nil htext.tail, bind, Except.bind, hch.1,
    hmark, if_false, Bool.false_eq_true, ne_eq, not_true, not_false_iff, and_self, if_true]
  exact ⟨_, rfl, htext.tail, rfl, hskip, hdone⟩

lemma token {x : Byte} (h : At str (ch :: ch' :: x :: t) false k q) (hch : Mark ch) :
    ∃ q', scanStep str q = .ok (q', k.taken (ch, ch')) ∧ At str t false k.token q' := by
  obtain ⟨htext, hb, hskip, hdone⟩ := h
  have hmark := hch.ne_blank
  have h0 : ch' ≠ 0 := fun h0 => htext.tail.free (h0 ▸ List.mem_cons_self)
  simp only [scanStep, hb, deref_cons htext, deref_cons htext.tail, bind, Except.bind, hch.1,
    hmark, h0, if_false, Bool.false_eq_true, ne_eq, not_false_iff, and_self, if_true, hskip,
    decide_eq_true_eq]
  by_cases hk : k = .pending
  · subst hk
    exact ⟨_, rfl, htext.tail.tail.tail, rfl, rfl, rfl⟩
  · have htoken : k.token = k := by cases k <;> first | rfl | exact absurd rfl hk
    rw [if_neg hk, Skip.taken, if_neg hk, htoken]
    exact ⟨_, rfl, htext.tail.tail.tail, rfl, hskip ▸ rfl, hdone⟩

end At

end

end Blastit.Fw.PidParser
