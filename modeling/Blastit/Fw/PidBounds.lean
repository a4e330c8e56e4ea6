import Blastit.Fw.PidScan

/-!
Which texts the decoder reads without leaving them or its arrays.

A letter counts from zero in `tohex` and the first digit is shifted by eight, so the high
byte of a record's code is at least `0xC0`, no size is known for it, and every record is
two tokens. What is left to ask of a text is its layout, and that there are no more than
ten tokens.
-/

namespace Blastit.Fw.PidParser

open Blastit.Lib.Text Blastit.Fw.Uart

/-! ### Records -/

/-- After `n` tokens of records: every second one opens a record, and the one after it finds
the low byte of its code still zero. -/
structure Stored (n : ℕ) (c : Cursor) : Prop where
  le : n ≤ 2 * pidStorageSize
  iPid : c.iPid + 1 = ((n + 1) / 2 : ℕ)
  pidSize : c.pidSize = (n % 2 : ℕ)
  code : n % 2 = 1 → ∀ i : Fin pidStorageSize, (i.val : ℤ) = c.iPid →
    (c.pids i).code &&& 0xFF = 0 ∧ (c.pids i).code.msb = true

/-- Where the cursor is, and what it knows of headers; storing a token leaves that alone. -/
def place (c : Cursor) : ℕ × Bool × Bool × Bool := (c.ptr, c.startLine, c.skipDigit, c.digitSkipped)

section
variable {c c' : Cursor} {n : ℕ}

lemma tohex_lt (ch : Byte) : tohex ch < 26 := by
  revert ch
  decide

lemma mode_code (hi lo : Byte) :
    BitVec.ofInt 16 ((tokenValue hi lo - 0x40) * 256) &&& 0xFF = 0 ∧
      (BitVec.ofInt 16 ((tokenValue hi lo - 0x40) * 256)).msb = true := by
  have hlo := tohex_lt lo
  have hvalue : tokenValue hi lo = (tohex hi * 256 + tohex lo : ℕ) := by
    rw [tokenValue, ← Nat.shiftLeft_add_eq_or_of_lt (by omega), Nat.shiftLeft_eq]
  have hcode : BitVec.ofInt 16 ((tokenValue hi lo - 0x40) * 256) =
      BitVec.ofNat 16 ((tohex lo + 192) * 256) := by
    apply BitVec.eq_of_toNat_eq
    rw [BitVec.toNat_ofInt, BitVec.toNat_ofNat, hvalue]
    omega
  have hall : ∀ l < 26, BitVec.ofNat 16 ((l + 192) * 256) &&& 0xFF = 0 ∧
      (BitVec.ofNat 16 ((l + 192) * 256)).msb = true := by
    decide
  rw [hcode]
  exact hall _ hlo

lemma size_of_msb {code : BitVec 16} (h : code.msb = true) : obd2GetPidResultSize code = 0 := by
  unfold obd2GetPidResultSize
  split_ifs with h1 h2 h3 h4 h5 h6 h7 h8
  all_goals first
    | rfl
    | (subst_vars; revert h; decide)

lemma pidAt_ok {i : ℕ} (hi : i < pidStorageSize) (h : c.iPid = i) : pidAt c = .ok ⟨i, hi⟩ := by
  rw [pidAt, dif_pos (by omega)]
  congr 1
  exact Fin.ext (by simp [h])

/-- **A token goes into its record** while there is a record for it. -/
lemma storeToken_ok (hi lo : Byte) (h : Stored n c) (hn : n < 2 * pidStorageSize) :
    ∃ c', storeToken (tokenValue hi lo) c = .ok c' ∧ Stored (n + 1) c' ∧ place c' = place c := by
  obtain ⟨-, hpid, hsize, hcode⟩ := h
  rcases Nat.mod_two_eq_zero_or_one n with hpar | hpar
  · -- the mode: the next record
    have hi5 : n / 2 < pidStorageSize := by omega
    obtain ⟨hlow, hmsb⟩ := mode_code hi lo
    have hat : pidAt { c with iPid := c.iPid + 1, iPidEnd := 0, pidSize := 1 } =
        .ok ⟨n / 2, hi5⟩ :=
      pidAt_ok hi5 (by show c.iPid + 1 = _; omega)
    rw [storeToken, if_pos (by rw [hsize, hpar]; rfl)]
    simp only [bind, Except.bind, hat]
    refine ⟨_, rfl, ⟨by omega, ?_, ?_, ?_⟩, rfl⟩
    · show c.iPid + 1 + 1 = _
      omega
    · show (1 : ℤ) = _
      omega
    · intro _ i hi'
      have hie : i = ⟨n / 2, hi5⟩ := Fin.ext (by
        have hi'' : (i.val : ℤ) = c.iPid + 1 := hi'
        show i.val = n / 2
        omega)
      subst hie
      simp only [Function.update_self]
      exact ⟨hlow, hmsb⟩
  · -- its PID, whose size is not known
    have hi5 : n / 2 < pidStorageSize := by omega
    obtain ⟨hlow, hmsb⟩ := hcode hpar ⟨n / 2, hi5⟩ (by show ((n / 2 : ℕ) : ℤ) = _; omega)
    rw [storeToken, if_neg (by rw [hsize, hpar]; decide), pidAt_ok hi5 (by omega)]
    simp only [bind, Except.bind, hlow, if_true]
    refine ⟨_, rfl, ⟨by omega, ?_, ?_, fun h1 => by omega⟩, rfl⟩
    · show c.iPid + 1 = _
      omega
    · show (obd2GetPidResultSize _ : ℤ) = _
      rw [size_of_msb (by rw [BitVec.msb_or, hmsb, Bool.true_or])]
      omega

/-- The eleventh finds none. -/
lemma storeToken_full (hi lo : Byte) (h : Stored (2 * pidStorageSize) c) :
    storeToken (tokenValue hi lo) c = .error .pidIndex := by
  obtain ⟨-, hpid, hsize, -⟩ := h
  have hat : pidAt { c with iPid := c.iPid + 1, iPidEnd := 0, pidSize := 1 } = .error .pidIndex := by
    refine dif_neg ?_
    show ¬ (0 ≤ c.iPid + 1 ∧ c.iPid + 1 < pidStorageSize)
    omega
  rw [storeToken, if_pos (by rw [hsize]; rfl)]
  simp only [bind, Except.bind, hat]

end

/-! ### Rounds -/

/-- The rest of the text, and what the loop knows there. -/
structure Stands (str r : List Byte) (b : Bool) (k : Skip) (c : Cursor) : Prop where
  text : StringAt str c.ptr r
  startLine : c.startLine = b
  skipDigit : c.skipDigit = decide (k = .pending)
  digitSkipped : c.digitSkipped = decide (k = .skipped)

/-- The cursor behind a token, wherever that is. -/
structure Behind (c : Cursor) (k : Skip) (n : ℕ) (c' : Cursor) : Prop where
  ptr : c'.ptr = c.ptr + 3
  stored : Stored (n + k.cost) c'
  startLine : c'.startLine = false
  skipDigit : c'.skipDigit = decide (k.token = .pending)
  digitSkipped : c'.digitSkipped = decide (k.token = .skipped)

/-- A round that takes the loop to before `r` and stores nothing. -/
def Moves (str : List Byte) (c : Cursor) (r : List Byte) (b : Bool) (k : Skip) : Prop :=
  ∃ c', parseStep str c = .ok c' ∧ Stands str r b k c' ∧ ∀ n, Stored n c → Stored n c'

section
variable {str s r t : List Byte} {b : Bool} {k : Skip} {c c' : Cursor} {m n : ℕ} {ch ch' : Byte}

lemma Stored.moved (h : Stored n c) (ptr : ℕ) (b₁ b₂ b₃ : Bool) :
    Stored n { c with ptr := ptr, startLine := b₁, skipDigit := b₂, digitSkipped := b₃ } :=
  ⟨h.le, h.iPid, h.pidSize, h.code⟩

lemma Stands.reader (h : Stands str r b k c) : At str r b k c.reader :=
  ⟨h.text, h.startLine, h.skipDigit, h.digitSkipped⟩

lemma Passes.moves (h : Passes str c.reader r b k) : Moves str c r b k := by
  obtain ⟨q, hstep, hq⟩ := h
  refine ⟨c.goto q, ?_, ?_, fun _ hs => hs.moved _ _ _ _⟩
  · rw [parseStep_eq, hstep]
    rfl
  · exact ⟨hq.text, hq.startLine, hq.skipDigit, hq.digitSkipped⟩

namespace Stands

lemma loop_nil (h : Stands str [] b k c) : parseLoop str (m + 1) c = .ok c := by
  rw [parseLoop, deref_nil h.text]
  rfl

lemma loop_cons (h : Stands str (ch :: t) b k c) :
    parseLoop str (m + 1) c = (parseStep str c).bind (parseLoop str m) := by
  have h0 : ch ≠ 0 := fun h0 => h.text.free (h0 ▸ List.mem_cons_self)
  rw [parseLoop, deref_cons h.text]
  simp only [bind, Except.bind, h0, if_false]

/-- A line with a header: on behind it. -/
lemma step_header (h : Stands str r true k c) (hh : Header r t) :
    Moves str c t false k.header :=
  (h.reader.header hh).moves

/-- A line without one: the colon, if there is one, is later. -/
lemma step_plain (h : Stands str r true k c) (hno : ∀ t, ¬ Header r t)
    (hcolon : (0x0d : Byte) ∈ r → (0x3a : Byte) ∈ r) : Moves str c r false k :=
  (h.reader.plain hno hcolon).moves

/-- A line end and no colon at all: the null pointer is below any other. -/
lemma step_null (h : Stands str r true k c) (hend : (0x0d : Byte) ∈ r)
    (hcolon : (0x3a : Byte) ∉ r) : parseStep str c = .error .nullCursor := by
  rw [parseStep_eq, h.reader.null hend hcolon]
  rfl

lemma step_eol (h : Stands str (0x0d :: t) false k c) : Moves str c t true k := h.reader.eol.moves

lemma step_blank (h : Stands str (ch :: t) false k c) (hch : Blank ch) : Moves str c t false k :=
  (h.reader.blank hch).moves

/-- The last character of a text is left alone. -/
lemma step_last (h : Stands str [ch] false k c) (hch : Mark ch) : Moves str c [] false k :=
  (h.reader.last hch).moves

lemma step_eq (h : Stands str (ch :: ch' :: t) false k c) (hch : Mark ch) :
    parseStep str c =
      (if k = .pending then .ok { c with skipDigit := false, digitSkipped := true }
        else storeToken (tokenValue ch ch') c).map fun c => { c with ptr := c.ptr + 3 } := by
  obtain ⟨htext, hb, hskip, hdone⟩ := h
  have hmark := hch.ne_blank
  have h0 : ch' ≠ 0 := fun h0 => htext.tail.free (h0 ▸ List.mem_cons_self)
  simp only [parseStep, hb, deref_cons htext, deref_cons htext.tail, bind, Except.bind, hch.1,
    hmark, h0, if_false, Bool.false_eq_true, ne_eq, not_false_iff, and_self, if_true, hskip,
    decide_eq_true_eq]
  by_cases hk : k = .pending
  · simp only [hk, if_true]
    rfl
  · simp only [hk, if_false, tokenValue]
    cases storeToken (tohex ch <<< 8 ||| tohex ch' : ℕ) c <;> rfl

lemma step_token (h : Stands str (ch :: ch' :: t) false k c) (hch : Mark ch)
    (hs : Stored n c) (hn : n + k.cost ≤ 2 * pidStorageSize) :
    ∃ c', parseStep str c = .ok c' ∧ Behind c k n c' := by
  rw [h.step_eq hch]
  by_cases hk : k = .pending
  · subst hk
    exact ⟨_, rfl, rfl, hs.moved _ _ _ _, h.startLine, rfl, rfl⟩
  · have hcost : k.cost = 1 := by cases k <;> first | rfl | exact absurd rfl hk
    have htoken : k.token = k := by cases k <;> first | rfl | exact absurd rfl hk
    obtain ⟨c', hstore, hs', hplace⟩ := storeToken_ok ch ch' hs (by omega)
    simp only [place, Prod.mk.injEq] at hplace
    obtain ⟨hptr, hstart, hskip, hdone⟩ := hplace
    rw [if_neg hk, hstore]
    refine ⟨_, rfl, congrArg (· + 3) hptr, ?_, hstart.trans h.startLine, ?_, ?_⟩
    · rw [hcost]
      exact hs'.moved _ _ _ _
    · rw [htoken]
      exact hskip.trans h.skipDigit
    · rw [htoken]
      exact hdone.trans h.digitSkipped

lemma step_full (h : Stands str (ch :: ch' :: t) false k c) (hch : Mark ch)
    (hs : Stored n c) (hn : ¬ n + k.cost ≤ 2 * pidStorageSize) :
    parseStep str c = .error .pidIndex := by
  have hle := hs.le
  have hk : k ≠ .pending := by
    rintro rfl
    exact hn hle
  have hfull : n = 2 * pidStorageSize := by
    have : k.cost ≤ 1 := by cases k <;> decide
    omega
  subst hfull
  rw [h.step_eq hch, if_neg hk, storeToken_full _ _ hs]
  rfl

end Stands

/-! ### Runs -/

/-- A run ends well if `P`, and leaves the text or the arrays if not. -/
inductive Ends (res : Except Fault Cursor) (P : Prop) : Prop
  | ok {last : Cursor} (h : res = .ok last) (hP : P)
  | fault {e : Fault} (h : res = .error e) (hP : ¬ P)

lemma Ends.congr {res : Except Fault Cursor} {P Q : Prop} (h : Ends res P) (hPQ : Q ↔ P) :
    Ends res Q := by
  cases h with
  | ok h hP => exact .ok h (hPQ.mpr hP)
  | fault h hP => exact .fault h fun hQ => hP (hPQ.mp hQ)

lemma Moves.ends {P : Prop} (h : Moves str c t b k) (hs : Stored n c)
    (hrun : ∀ c', Stands str t b k c' → Stored n c' → Ends (parseLoop str m c') P) :
    Ends ((parseStep str c).bind (parseLoop str m)) P := by
  obtain ⟨c', hstep, hst, hs'⟩ := h
  rw [hstep]
  exact hrun c' hst (hs' n hs)

lemma Behind.stands {x y : Byte} (h : Stands str (ch :: x :: y :: t) false k c)
    (hc : Behind c k n c') : Stands str t false k.token c' := by
  refine ⟨?_, hc.startLine, hc.skipDigit, hc.digitSkipped⟩
  rw [hc.ptr]
  exact h.text.tail.tail.tail

lemma Behind.pastEnd {x : Byte} (h0 : (0 : Byte) ∉ s) (h : Stands (s ++ [0]) [ch, x] false k c)
    (hc : Behind c k n c') : parseLoop (s ++ [0]) (m + 1) c' = .error .pastEnd := by
  have hlen : c.ptr + 2 = s.length := h.text.add_length h0
  have hderef : deref (s ++ [0]) c'.ptr = .error .pastEnd := by
    refine deref_end ?_
    rw [hc.ptr, List.length_append, List.length_singleton]
    omega
  rw [parseLoop, hderef]
  rfl

/-- The round after a token that ends outside the text or the arrays. -/
lemma Stands.ends_token (h : Stands str (ch :: ch' :: t) false k c) (hch : Mark ch)
    (hs : Stored n c) {P : Prop} (hP : P → n + k.cost ≤ 2 * pidStorageSize)
    (hrun : n + k.cost ≤ 2 * pidStorageSize → ∀ c', Behind c k n c' → Ends (parseLoop str m c') P) :
    Ends ((parseStep str c).bind (parseLoop str m)) P := by
  by_cases hn : n + k.cost ≤ 2 * pidStorageSize
  · obtain ⟨c', hstep, hc⟩ := h.step_token hch hs hn
    rw [hstep]
    exact hrun hn c' hc
  · rw [h.step_full hch hs hn]
    exact .fault rfl fun hp => hn (hP hp)

/-- The runs of less than `m` rounds on the string `s` end well exactly if the rest fits. A
round at the beginning of a line leaves the text as it is, so every character counts for
two. -/
def Runs (s : List Byte) (m : ℕ) : Prop :=
  ∀ r b k c n, Stands (s ++ [0]) r b k c → Stored n c → 2 * r.length + b.toNat < m →
    Ends (parseLoop (s ++ [0]) m c) (Fits b k n r)

lemma Header.shorter (h : Header r t) : t.length < r.length := by
  obtain ⟨pre, rfl, -⟩ := h
  rw [List.length_append, List.length_cons]
  omega

lemma Runs.line (ih : Runs s m) (h : Stands (s ++ [0]) r true k c) (hs : Stored n c)
    (hm : 2 * r.length < m) :
    Ends ((parseStep (s ++ [0]) c).bind (parseLoop (s ++ [0]) m)) (Fits true k n r) := by
  by_cases hheader : ∃ t, Header r t
  · obtain ⟨t, hh⟩ := hheader
    have hlen := hh.shorter
    exact (h.step_header hh).ends hs fun c' hst hs' =>
      (ih _ _ _ _ _ hst hs' (by rw [Bool.toNat_false]; omega)).congr (fits_header hh)
  by_cases hcolon : (0x0d : Byte) ∈ r → (0x3a : Byte) ∈ r
  · have hno : ∀ t, ¬ Header r t := fun t hh => hheader ⟨t, hh⟩
    exact (h.step_plain hno hcolon).ends hs fun c' hst hs' =>
      (ih _ _ _ _ _ hst hs' hm).congr (fits_plain hno hcolon)
  · obtain ⟨hend, hcolon⟩ := Classical.not_imp.mp hcolon
    rw [h.step_null hend hcolon]
    exact .fault rfl (not_fits_of_colon hend hcolon)

lemma Runs.mark (ih : Runs s m) (h0 : (0 : Byte) ∉ s)
    (h : Stands (s ++ [0]) (ch :: t) false k c) (hmark : Mark ch) (hs : Stored n c)
    (hm : 2 * t.length + 1 < m) :
    Ends ((parseStep (s ++ [0]) c).bind (parseLoop (s ++ [0]) m)) (Fits false k n (ch :: t)) := by
  rcases t with _ | ⟨ch', t⟩
  · -- one character is left
    exact (h.step_last hmark).ends hs fun c' hst hs' =>
      (ih _ _ _ _ _ hst hs' (Nat.zero_lt_of_lt hm)).congr ((fits_last hmark).trans fits_nil.symm)
  rw [List.length_cons] at hm
  rcases t with _ | ⟨ch'', t⟩
  · -- two are left
    refine h.ends_token hmark hs (fun hp => absurd hp (not_fits_two hmark)) fun _ c' hc => ?_
    obtain ⟨m, rfl⟩ := Nat.exists_eq_succ_of_ne_zero (show m ≠ 0 by omega)
    exact .fault (hc.pastEnd h0 h) (not_fits_two hmark)
  · rw [List.length_cons] at hm
    refine h.ends_token hmark hs (fun hp => ?_) fun _ c' hc => ?_
    · obtain ⟨items, -, hn⟩ := (fits_token hmark).mp hp
      omega
    · exact (ih _ _ _ _ _ (hc.stands h) hc.stored (by rw [Bool.toNat_false]; omega)).congr
        (fits_token hmark)

/-- **All runs** on a string end well exactly if the rest of it fits. -/
lemma runs (h0 : (0 : Byte) ∉ s) (m : ℕ) : Runs s m := by
  induction m with
  | zero => exact fun _ _ _ _ _ _ _ hm => absurd hm (Nat.not_lt_zero _)
  | succ m ih =>
    intro r b k c n h hs hm
    rcases r with _ | ⟨ch, t⟩
    · refine .ok h.loop_nil ?_
      cases b with
      | true => exact (fits_plain (not_header (by simp)) (by simp)).mpr (fits_nil.mpr hs.le)
      | false => exact fits_nil.mpr hs.le
    rw [h.loop_cons]
    cases b with
    | true =>
      rw [Bool.toNat_true] at hm
      exact ih.line h hs (by omega)
    | false =>
      rw [List.length_cons, Bool.toNat_false] at hm
      by_cases heol : ch = 0x0d
      · subst heol
        exact h.step_eol.ends hs fun c' hst hs' =>
          (ih _ _ _ _ _ hst hs' (by rw [Bool.toNat_true]; omega)).congr fits_eol
      by_cases hblank : Blank ch
      · exact (h.step_blank hblank).ends hs fun c' hst hs' =>
          (ih _ _ _ _ _ hst hs' (by rw [Bool.toNat_false]; omega)).congr (fits_blank hblank)
      · exact ih.mark h0 h ⟨heol, hblank⟩ hs (by omega)

end

/-! ### The ways out -/

/-- The ways to leave the array or the records. -/
def Leaves (e : Fault) : Prop := e = .nullCursor ∨ e = .pastEnd ∨ e = .pidIndex

section
variable {str pat : List Byte} {i m n : ℕ} {c : Cursor} {q : Reader} {d : Data} {e : Fault}

/-- A bound for the rounds that are left. -/
def Reader.left (str : List Byte) (q : Reader) : ℕ := 2 * (str.length - q.ptr) + q.startLine.toNat

lemma deref_cases (str : List Byte) (i : ℕ) :
    deref str i = .error .pastEnd ∨ i < str.length ∧ ∃ ch, deref str i = .ok ch := by
  by_cases hi : i < str.length
  · exact .inr ⟨hi, str[i], by rw [deref, List.getElem?_eq_getElem hi]⟩
  · exact .inl (deref_end (by omega))

lemma strstrFrom_cases (str : List Byte) (i : ℕ) (pat : List Byte) :
    strstrFrom str i pat = .error .pastEnd ∨
      ∃ next, strstrFrom str i pat = .ok next ∧ ∀ j, next = some j → i ≤ j := by
  unfold strstrFrom
  cases strstr (cstr (str.drop i)) pat with
  | some j => exact .inr ⟨_, rfl, fun k hk => Option.some.inj hk ▸ Nat.le_add_right i j⟩
  | none =>
    dsimp only
    split_ifs
    · exact .inr ⟨_, rfl, fun j hj => absurd hj (Option.some_ne_none j).symm⟩
    · exact .inl rfl

/-- A round leaves the array, or goes on in it with less left. -/
def Goes (str : List Byte) (q : Reader) (res : Except Fault (Reader × Option (Byte × Byte))) :
    Prop :=
  (∃ e, res = .error e ∧ Leaves e) ∨ ∃ q' token, res = .ok (q', token) ∧ q'.left str < q.left str

lemma goes_pastEnd : Goes str q (.error .pastEnd) := .inl ⟨_, rfl, .inr (.inl rfl)⟩

lemma goes_ok {q' : Reader} {token : Option (Byte × Byte)} (h : q'.left str < q.left str) :
    Goes str q (.ok (q', token)) := .inr ⟨q', token, rfl, h⟩

lemma scanStep_line (hq : q.ptr < str.length) (hb : q.startLine = true) :
    Goes str q (scanStep str q) := by
  have hstay : Goes str q (.ok ({ q with startLine := false }, none)) :=
    goes_ok (by simp [Reader.left, hb])
  simp only [scanStep, hb, if_true]
  rcases strstrFrom_cases str q.ptr (ascii ":") with h | ⟨next, h, hle⟩ <;> rw [h]
  · exact goes_pastEnd
  rcases strstrFrom_cases str q.ptr (ascii "\r") with h' | ⟨eol, h', -⟩ <;> rw [h']
  · exact goes_pastEnd
  simp only [bind, Except.bind]
  by_cases hlt : ptrLt next eol = true
  swap
  · rw [if_neg hlt]
    exact hstay
  rw [if_pos hlt]
  cases next with
  | none => exact .inl ⟨_, rfl, .inl rfl⟩
  | some j =>
    have hj := hle j rfl
    refine goes_ok ?_
    simp only [Reader.left, hb, Bool.toNat_true, Bool.toNat_false]
    omega

lemma scanStep_mark (hq : q.ptr < str.length) (hb : q.startLine = false) :
    Goes str q (scanStep str q) := by
  have hnext : ∀ (i : ℕ) (b b₂ b₃ : Bool), q.ptr < i →
      Reader.left str ⟨i, b, b₂, b₃⟩ < q.left str := by
    intro i b b₂ b₃ hi
    have hle := Bool.toNat_le b
    simp only [Reader.left, hb, Bool.toNat_false]
    omega
  simp only [scanStep, hb, Bool.false_eq_true, if_false]
  rcases deref_cases str q.ptr with h | ⟨-, ch, h⟩ <;> rw [h]
  · exact goes_pastEnd
  simp only [bind, Except.bind]
  by_cases heol : ch = 0x0d
  · rw [if_pos heol]
    exact goes_ok (hnext _ _ _ _ (by omega))
  rw [if_neg heol]
  by_cases hmark : ch ≠ 0x20 ∧ ch ≠ 0x09
  swap
  · rw [if_neg hmark]
    exact goes_ok (hnext _ _ _ _ (by omega))
  rw [if_pos hmark]
  rcases deref_cases str (q.ptr + 1) with h' | ⟨-, ch', h'⟩ <;> rw [h']
  · exact goes_pastEnd
  dsimp only
  split_ifs <;> exact goes_ok (hnext _ _ _ _ (by omega))

lemma goes_scanStep (hq : q.ptr < str.length) : Goes str q (scanStep str q) := by
  cases hb : q.startLine with
  | true => exact scanStep_line hq hb
  | false => exact scanStep_mark hq hb

lemma storeNext_cases (hs : Stored n c) (token : Option (Byte × Byte)) :
    storeNext c token = .error .pidIndex ∨ ∃ c' n', storeNext c token = .ok c' ∧ Stored n' c' := by
  cases token with
  | none => exact .inr ⟨c, n, rfl, hs⟩
  | some token =>
    by_cases hn : n < 2 * pidStorageSize
    · obtain ⟨c', hstore, hs', -⟩ := storeToken_ok token.1 token.2 hs hn
      exact .inr ⟨c', _, hstore, hs'⟩
    · obtain rfl : n = 2 * pidStorageSize := Nat.le_antisymm hs.le (by omega)
      exact .inl (storeToken_full token.1 token.2 hs)

/-- **A loop that does not end well has left its data**, in one of three ways. -/
lemma leaves_of_parseLoop (hs : Stored n c) (hm : c.reader.left str < m)
    (h : parseLoop str m c = .error e) : Leaves e := by
  induction m generalizing n c with
  | zero => exact absurd hm (Nat.not_lt_zero _)
  | succ m ih =>
    rw [parseLoop] at h
    rcases deref_cases str c.ptr with hd | ⟨hlt, ch, hd⟩
    · rw [hd] at h
      cases h
      exact .inr (.inl rfl)
    rw [hd] at h
    simp only [bind, Except.bind] at h
    split_ifs at h with hend
    · cases h
    rw [parseStep_eq] at h
    rcases goes_scanStep (q := c.reader) hlt with ⟨e', hstep, he'⟩ | ⟨q', token, hstep, hleft⟩
    · rw [hstep] at h
      cases h
      exact he'
    rw [hstep] at h
    rcases storeNext_cases hs token with hstore | ⟨c', n', hstore, hs'⟩
    · simp only [bind, Except.bind, hstore] at h
      cases h
      exact .inr (.inr rfl)
    · simp only [bind, Except.bind, hstore] at h
      exact ih (hs'.moved _ _ _ _) (lt_of_lt_of_le hleft (Nat.le_of_lt_succ hm)) h

lemma stored_start : Stored 0 start :=
  ⟨Nat.zero_le _, rfl, rfl, fun h => absurd h (by decide)⟩

/-- **The decoder returns or leaves its data**, on any array. -/
theorem leaves_of_parse (h : obd2ParsePidResponse str d = .error e) : Leaves e := by
  unfold obd2ParsePidResponse at h
  dsimp only at h
  by_cases hmem : (0 : Byte) ∉ str
  · rw [if_pos hmem] at h
    cases h
    exact .inr (.inl rfl)
  rw [if_neg hmem] at h
  split_ifs at h
  cases hloop : parseLoop str (2 * str.length + 4) start with
  | ok c =>
    rw [hloop] at h
    cases h
  | error e' =>
    rw [hloop] at h
    cases h
    have hleft : start.reader.left str < 2 * str.length + 4 := by
      show 2 * (str.length - 0) + 1 < 2 * str.length + 4
      omega
    exact leaves_of_parseLoop stored_start hleft hloop

end

/-! ### Responses -/

/-- A text with a layout, and tokens for five records at most. -/
def Laid (s : List Byte) : Prop := ∃ items, Layout true s items ∧ counted items ≤ 2 * pidStorageSize

section
variable {s : List Byte}

lemma fits_start : Fits true .none 0 s ↔ Laid s := by
  unfold Fits Laid
  simp only [countedFrom_none, Nat.zero_add]

lemma ends_start (h0 : (0 : Byte) ∉ s) :
    Ends (parseLoop (s ++ [0]) (2 * (s ++ [0]).length + 4) start) (Laid s) := by
  have htext : StringAt (s ++ [0]) 0 s := stringAt_append h0 []
  have hlen := htext.lt_length
  have hstart : Stands (s ++ [0]) s true .none start := ⟨htext, rfl, rfl, rfl⟩
  exact (runs h0 _ _ _ _ _ _ hstart stored_start
    (by rw [Bool.toNat_true]; omega)).congr fits_start.symm

end

/-- **The decoder stays inside its data** exactly on refusals, on texts that say there is no
data, and on texts that fall into lines and tokens, with no more than ten tokens of records.
On all others its loop ends too, but outside the text or the records. -/
theorem inside_iff (s : List Byte) (d : Data) (h0 : (0 : Byte) ∉ s) :
    ((∃ res, obd2ParsePidResponse (s ++ [0]) d = .ok res) ↔
      refused s = true ∨ (strstr s (ascii "NO DATA")).isSome = true ∨ Laid s) ∧
    ∀ e, obd2ParsePidResponse (s ++ [0]) d = .error e → Leaves e := by
  refine ⟨?_, fun e he => leaves_of_parse he⟩
  rw [obd2ParsePidResponse_eq (stringAt_append h0 [])]
  by_cases href : refused s = true
  · simp [href]
  by_cases hdata : (strstr s (ascii "NO DATA")).isSome = true
  · simp [href, hdata]
  simp only [href, hdata, false_or, Bool.false_eq_true, if_false]
  cases ends_start h0 with
  | ok h hlaid =>
    rw [h]
    exact iff_of_true ⟨_, rfl⟩ hlaid
  | fault h hlaid =>
    rw [h]
    refine iff_of_false ?_ hlaid
    rintro ⟨_, hok⟩
    cases hok

def noValues : Data := ⟨noPids, 0, ⟨0, 0, 0, 0, 0, 0⟩⟩

/-- One line with a header, a length and a record. -/
theorem inside_one_line :
    ∃ res, obd2ParsePidResponse (ascii "0: 03 41 0B \r>" ++ [0]) noValues = .ok res := by
  have htext : ascii "0: 03 41 0B \r>" = [0x30, 0x3a, 0x20, 0x30, 0x33, 0x20, 0x34, 0x31, 0x20,
      0x30, 0x42, 0x20, 0x0d, 0x3e] := by decide
  have hmark : ∀ c ∈ [(0x30 : Byte), 0x34, 0x3e], Mark c := by unfold Mark Blank; decide
  have hlaid : Laid (ascii "0: 03 41 0B \r>") := by
    rw [htext]
    exact ⟨_, .header ⟨[0x30], rfl, by decide, by decide, by decide⟩ (.blank (Or.inl rfl)
      (.token (hmark _ (by decide)) (.token (hmark _ (by decide)) (.token (hmark _ (by decide))
        (.eol (.plain (not_header (by decide)) (by decide) (.last (hmark _ (by decide))))))))),
      by decide⟩
  exact (inside_iff _ noValues (by decide)).1.mpr (Or.inr (Or.inr hlaid))

/-- A reply in one line, a token cut short, and an eleventh token. -/
theorem leaves_three_ways :
    obd2ParsePidResponse (ascii "41 0B 64 \r>" ++ [0]) noValues = .error .nullCursor ∧
      obd2ParsePidResponse (ascii "41" ++ [0]) noValues = .error .pastEnd ∧
      obd2ParsePidResponse (ascii "41 04 41 05 41 0B 41 0F 41 33 41 34" ++ [0]) noValues =
        .error .pidIndex :=
  ⟨rfl, rfl, rfl⟩

end Blastit.Fw.PidParser
