import Blastit.Fw.PidScan
import Blastit.Fw.PidRoundTrip

/-!
The tokens of a response in several lines.

The scanner reads a text of lines with headers to the tokens in it, and skips the first one,
a length, wherever the lines break. The decoder stores what the scanner reads.
-/

namespace Blastit.Fw.PidParser

open Blastit.Lib.Text Blastit.Lib.Calls Blastit.Fw.Uart

/-! ### The decoder stores the tokens of the scanner -/

section
variable {str : List Byte} {m : ℕ} {c : Cursor} {tokens : List (Byte × Byte)}

lemma store_goto (c : Cursor) (token : Byte × Byte) (q : Reader) :
    store (c.goto q) token = (·.goto q) <$> store c token := storeToken_goto _ c q

lemma storeNext_eq (c : Cursor) (token : Option (Byte × Byte)) :
    storeNext c token = token.toList.foldlM store c := by
  cases token with
  | none => rfl
  | some token =>
    show store c token = store c token >>= pure
    rw [bind_pure]

/-- **The records are those of the tokens**, stored one after the other. -/
theorem parseLoop_pids (h : scanLoop str m c.reader = .ok tokens) :
    Cursor.pids <$> parseLoop str m c = Cursor.pids <$> tokens.foldlM store c := by
  induction m generalizing c tokens with
  | zero => cases h
  | succ m ih =>
    rw [scanLoop] at h
    rw [parseLoop]
    obtain ⟨ch, hch, h⟩ := bind_eq_ok.mp h
    rw [show c.ptr = c.reader.ptr from rfl, hch]
    simp only [bind, Except.bind]
    split_ifs at h ⊢ with h0
    · cases h
      rfl
    obtain ⟨⟨q, token⟩, hstep, h⟩ := bind_eq_ok.mp h
    obtain ⟨ts, hts, h⟩ := bind_eq_ok.mp h
    cases h
    rw [parseStep_eq, hstep, List.foldlM_append, ← storeNext_eq]
    simp only [bind, Except.bind]
    cases storeNext c token with
    | error e => rfl
    | ok c' =>
      have hrun := ih (c := c'.goto q) hts
      rw [foldlM_hom (fun c t => store_goto c t q)] at hrun
      rw [← comp_map] at hrun
      exact hrun

end

/-! ### Reading to the end -/

/-- From the rest `r` of a text the scanner reads these tokens. -/
def Reads (r : List Byte) (b : Bool) (k : Skip) (tokens : List (Byte × Byte)) : Prop :=
  ∀ str m q, At str r b k q → 2 * r.length + b.toNat < m → scanLoop str m q = .ok tokens

section
variable {r t : List Byte} {b b' : Bool} {k k' : Skip} {ch ch' x : Byte}
  {o : Option (Byte × Byte)} {tokens : List (Byte × Byte)}

lemma reads_nil : Reads [] b k [] := by
  intro str m q h hm
  obtain ⟨m, rfl⟩ := Nat.exists_eq_succ_of_ne_zero (show m ≠ 0 by omega)
  rw [scanLoop, deref_nil h.text]
  rfl

lemma Reads.round (h : Reads t b' k' tokens)
    (hlen : 2 * t.length + b'.toNat < 2 * (r.length + 1) + b.toNat)
    (hstep : ∀ str q, At str (ch :: r) b k q →
      ∃ q', scanStep str q = .ok (q', o) ∧ At str t b' k' q') :
    Reads (ch :: r) b k (o.toList ++ tokens) := by
  intro str m q hq hm
  obtain ⟨m, rfl⟩ := Nat.exists_eq_succ_of_ne_zero (show m ≠ 0 by omega)
  obtain ⟨q', hround, hq'⟩ := hstep str q hq
  have h0 : ch ≠ 0 := fun h0 => hq.text.free (h0 ▸ List.mem_cons_self)
  rw [List.length_cons] at hm
  rw [scanLoop, deref_cons hq.text]
  simp only [bind, Except.bind, h0, if_false, hround, h str m q' hq' (by omega)]
  rfl

lemma Reads.header (hh : Header (ch :: r) t) (h : Reads t false k.header tokens) :
    Reads (ch :: r) true k tokens := by
  refine h.round ?_ fun str q hq => hq.header hh
  obtain ⟨pre, heq, -⟩ := hh
  have hlen := congrArg List.length heq
  rw [List.length_cons, List.length_append, List.length_cons] at hlen
  rw [Bool.toNat_false]
  omega

lemma Reads.eol (h : Reads t true k tokens) : Reads (0x0d :: t) false k tokens :=
  h.round (by rw [Bool.toNat_true]; omega) fun str q hq => hq.eol

lemma Reads.blank (h : Reads t false k tokens) : Reads (0x20 :: t) false k tokens :=
  h.round (by omega) fun str q hq => hq.blank (Or.inl rfl)

lemma Reads.token (h : Reads t false k.token tokens) (hch : Mark ch) :
    Reads (ch :: ch' :: x :: t) false k ((k.taken (ch, ch')).toList ++ tokens) :=
  h.round (by simp only [List.length_cons]; omega) fun str q hq => hq.token hch

/-- The prompt at the end is no token. -/
lemma reads_prompt : Reads [0x3e] true k [] := by
  have hmark : Mark 0x3e := by unfold Mark Blank; decide
  have hend : (0x0d : Byte) ∉ [(0x3e : Byte)] := by decide
  have hlast : Reads [0x3e] false k [] :=
    Reads.round reads_nil (by simp) fun str q hq => hq.last hmark
  exact hlast.round (by simp) fun str q hq =>
    hq.plain (not_header hend) fun h => absurd h hend

end

/-! ### Lines -/

def Hex (c : Byte) : Prop := ∃ v < 16, HexDigit v c

/-- A line of a response in several lines: its number, and bytes in two digits each. -/
structure PidLine where
  header : List Byte
  tokens : List (Byte × Byte)
  header_ne : header ≠ []
  tokens_ne : tokens ≠ []
  header_hex : ∀ c ∈ header, Hex c
  tokens_hex : ∀ t ∈ tokens, Hex t.1 ∧ Hex t.2

def PidLine.text (l : PidLine) : List Byte :=
  l.header ++ ascii ":" ++ l.tokens.flatMap (fun t => [0x20, t.1, t.2]) ++ ascii " \r"

/-- The lines, and the prompt. -/
def pidText (lines : List PidLine) : List Byte := lines.flatMap PidLine.text ++ ascii ">"

def allTokens (lines : List PidLine) : List (Byte × Byte) := lines.flatMap PidLine.tokens

lemma Hex.ne {c a : Byte} (h : Hex c) (ha : ¬ Hex a) : c ≠ a := fun he => ha (he ▸ h)

lemma hex_iff {c : Byte} : Hex c ↔ (0x30 ≤ c.toNat ∧ c.toNat ≤ 0x39) ∨
    (0x41 ≤ c.toNat ∧ c.toNat ≤ 0x46) ∨ (0x61 ≤ c.toNat ∧ c.toNat ≤ 0x66) := by
  constructor
  · rintro ⟨v, hv, hc⟩
    exact hc.range hv
  · rintro (h | h | h)
    · refine ⟨c.toNat - 0x30, by omega, ?_⟩
      rw [HexDigit, if_pos (by omega)]
      omega
    · refine ⟨c.toNat - 0x41 + 10, by omega, ?_⟩
      rw [HexDigit, if_neg (by omega)]
      omega
    · refine ⟨c.toNat - 0x61 + 10, by omega, ?_⟩
      rw [HexDigit, if_neg (by omega)]
      omega

instance : DecidablePred Hex := fun _ => decidable_of_iff _ hex_iff.symm

lemma Hex.mark {c : Byte} (h : Hex c) : Mark c :=
  ⟨h.ne (by decide), fun hblank => hblank.elim (h.ne (by decide)) (h.ne (by decide))⟩

section
variable {t : List Byte} {tokens ts : List (Byte × Byte)}

lemma blanks_shift (tokens : List (Byte × Byte)) (t : List Byte) :
    tokens.flatMap (fun t => [0x20, t.1, t.2]) ++ 0x20 :: t =
      0x20 :: (tokens.flatMap (fun t => [t.1, t.2, 0x20]) ++ t) := by
  induction tokens with
  | nil => rfl
  | cons token tokens ih =>
    rw [List.flatMap_cons, List.append_assoc, ih]
    rfl

lemma reads_tokens (hhex : ∀ t ∈ tokens, Hex t.1 ∧ Hex t.2) (h : Reads t false .skipped ts) :
    Reads (tokens.flatMap (fun t => [t.1, t.2, 0x20]) ++ t) false .skipped (tokens ++ ts) := by
  induction tokens with
  | nil => exact h
  | cons token tokens ih =>
    have hrest := ih fun t ht => hhex t (List.mem_cons_of_mem _ ht)
    exact Reads.token (k := .skipped) hrest (hhex token List.mem_cons_self).1.mark

lemma PidLine.header_text (l : PidLine) (t : List Byte) :
    ∃ ch r, l.text ++ t = ch :: r ∧
      Header (ch :: r) (0x20 :: (l.tokens.flatMap (fun t => [t.1, t.2, 0x20]) ++ 0x0d :: t)) := by
  obtain ⟨ch, pre, hpre⟩ := List.exists_cons_of_ne_nil l.header_ne
  have htext : l.text ++ t = l.header ++ 0x3a ::
      (0x20 :: (l.tokens.flatMap (fun t => [t.1, t.2, 0x20]) ++ 0x0d :: t)) := by
    rw [← blanks_shift]
    simp [PidLine.text, ascii]
  refine ⟨ch, pre ++ 0x3a :: (0x20 :: (l.tokens.flatMap (fun t => [t.1, t.2, 0x20]) ++ 0x0d :: t)),
    by rw [htext, hpre]; rfl, l.header, by rw [hpre]; rfl, ?_, ?_, by simp⟩
  · exact fun h => (l.header_hex _ h).ne (by decide) rfl
  · exact fun h => (l.header_hex _ h).ne (by decide) rfl

lemma reads_line (l : PidLine) (h : Reads t true .skipped ts) :
    Reads (l.text ++ t) true .skipped (l.tokens ++ ts) := by
  obtain ⟨ch, r, htext, hh⟩ := l.header_text t
  rw [htext]
  exact Reads.header hh (Reads.blank (reads_tokens l.tokens_hex h.eol))

/-- The first line: its first token is the length. -/
lemma reads_first (l : PidLine) (h : Reads t true .skipped ts) :
    Reads (l.text ++ t) true .none (l.tokens.tail ++ ts) := by
  obtain ⟨ch, r, htext, hh⟩ := l.header_text t
  obtain ⟨token, tokens, htok⟩ := List.exists_cons_of_ne_nil l.tokens_ne
  have hhex := l.tokens_hex
  rw [htok] at hh hhex
  have hrest : Reads _ false .skipped (tokens ++ ts) :=
    reads_tokens (fun t ht => hhex t (List.mem_cons_of_mem _ ht)) h.eol
  rw [htext, htok]
  -- the first token ends the wait for the length
  exact Reads.header hh (Reads.blank (Reads.token (k := .pending) hrest
    (hhex token List.mem_cons_self).1.mark))

lemma reads_lines (lines : List PidLine) :
    Reads (pidText lines) true .skipped (allTokens lines) := by
  induction lines with
  | nil => exact reads_prompt
  | cons l lines ih =>
    rw [pidText, List.flatMap_cons, List.append_assoc]
    exact reads_line l ih

end

/-! ### Responses -/

/-- The tokens of a response that reach the storage. -/
def scanTokens (str : List Byte) : Except Fault (List (Byte × Byte)) :=
  scanLoop str (2 * str.length + 4) start.reader

section
variable {lines : List PidLine} {c : Byte} {z : List Byte}

lemma not_mem_pidText (hhex : ¬ Hex c) (hother : c ∉ ascii ": \r>") : c ∉ pidText lines := by
  have hsep : ascii ": \r>" = [0x3a, 0x20, 0x0d, 0x3e] := by decide
  simp only [hsep, List.mem_cons, List.not_mem_nil, or_false, not_or] at hother
  obtain ⟨hcolon, hblank, heol, hprompt⟩ := hother
  intro h
  rw [pidText, List.mem_append, List.mem_flatMap] at h
  rcases h with ⟨l, -, hl⟩ | h
  · have hends : ascii ":" = [0x3a] ∧ ascii " \r" = [0x20, 0x0d] := by decide
    simp only [PidLine.text, hends, List.mem_append, List.mem_flatMap, List.mem_cons,
      List.not_mem_nil, or_false] at hl
    obtain ((hl | hl) | ⟨t, ht, hl⟩) | hl := hl
    · exact hhex (l.header_hex c hl)
    · exact hcolon hl
    · obtain ⟨h1, h2⟩ := l.tokens_hex t ht
      rcases hl with rfl | rfl | rfl
      · exact hblank rfl
      · exact hhex h1
      · exact hhex h2
    · exact hl.elim hblank heol
  · exact hprompt (List.mem_singleton.mp h)

lemma scanTokens_pidText (hne : lines ≠ []) :
    scanTokens (pidText lines ++ 0 :: z) = .ok (allTokens lines).tail := by
  obtain ⟨l, ls, rfl⟩ := List.exists_cons_of_ne_nil hne
  have hread : Reads (pidText (l :: ls)) true .none (l.tokens.tail ++ allTokens ls) := by
    rw [show pidText (l :: ls) = l.text ++ pidText ls by
      rw [pidText, List.flatMap_cons, List.append_assoc]
      rfl]
    exact reads_first l (reads_lines ls)
  rw [allTokens, List.flatMap_cons, List.tail_append_of_ne_nil l.tokens_ne]
  have htext : StringAt (pidText (l :: ls) ++ 0 :: z) 0 (pidText (l :: ls)) :=
    stringAt_append (not_mem_pidText (by decide) (by decide)) z
  have hlen := htext.lt_length
  exact hread _ _ _ ⟨htext, rfl, rfl, rfl⟩ (by rw [Bool.toNat_true]; omega)

lemma pidText_isData (lines : List PidLine) :
    refused (pidText lines) = false ∧ strstr (pidText lines) (ascii "NO DATA") = none := by
  have hquery : (0x3f : Byte) ∉ pidText lines := not_mem_pidText (by decide) (by decide)
  have hU : (0x55 : Byte) ∉ pidText lines := not_mem_pidText (by decide) (by decide)
  have hN : (0x4e : Byte) ∉ pidText lines := not_mem_pidText (by decide) (by decide)
  refine ⟨?_, strstr_eq_none (by decide) hN⟩
  rw [refused, strstr_eq_none (by decide) hquery, strstr_eq_none (by decide) hU]
  rfl

/-- **What the decoder makes of a response** comes from the tokens behind the length. -/
theorem parse_pidText (hne : lines ≠ []) (d : Data) :
    obd2ParsePidResponse (pidText lines ++ 0 :: z) d = do
      let c ← (allTokens lines).tail.foldlM store start
      return (true, obd2UpdatePidValues { d with pids := c.pids }) := by
  obtain ⟨href, hdata⟩ := pidText_isData lines
  have htext : StringAt (pidText lines ++ 0 :: z) 0 (pidText lines) :=
    stringAt_append (not_mem_pidText (by decide) (by decide)) z
  have hpids := parseLoop_pids (scanTokens_pidText (z := z) hne)
  -- nothing of the last cursor is used but its records
  have hused : ∀ x : Except Fault Cursor,
      (do let c ← x; return (true, obd2UpdatePidValues { d with pids := c.pids })) =
        (fun pids => (true, obd2UpdatePidValues { d with pids })) <$> Cursor.pids <$> x := by
    intro x
    cases x <;> rfl
  simp only [obd2ParsePidResponse_eq htext, href, hdata, Bool.false_eq_true, if_false,
    Option.isSome_none]
  rw [hused, hused, hpids]

end

/-- **The tokens of a response in several lines**: all of them in order but the first one, so
that it does not matter where the lines break, nor what stands behind the NUL. -/
theorem tokens_of_lines (lines : List PidLine) (z : List Byte) (hne : lines ≠ []) :
    scanTokens (pidText lines ++ 0 :: z) = .ok (allTokens lines).tail ∧
      ∀ (lines' : List PidLine) (z' : List Byte), lines' ≠ [] →
        (allTokens lines').tail = (allTokens lines).tail →
        ∀ d, obd2ParsePidResponse (pidText lines' ++ 0 :: z') d =
          obd2ParsePidResponse (pidText lines ++ 0 :: z) d := by
  refine ⟨scanTokens_pidText hne, fun lines' z' hne' hsame d => ?_⟩
  rw [parse_pidText hne', parse_pidText hne, hsame]

/-- A length and one record in two lines. -/
def twoLines : List PidLine :=
  [⟨ascii "0", [(0x30, 0x33), (0x34, 0x31)], by decide, List.cons_ne_nil _ _,
      by simp [ascii, hex_iff], by simp [hex_iff]⟩,
    ⟨ascii "1", [(0x30, 0x42), (0x36, 0x34)], by decide, List.cons_ne_nil _ _,
      by simp [ascii, hex_iff], by simp [hex_iff]⟩]

theorem tokens_of_twoLines :
    pidText twoLines = ascii "0: 03 41 \r1: 0B 64 \r>" ∧
      scanTokens (pidText twoLines ++ [0]) = .ok [(0x34, 0x31), (0x30, 0x42), (0x36, 0x34)] := by
  refine ⟨by decide, ?_⟩
  obtain ⟨htokens, -⟩ := tokens_of_lines twoLines [] (List.cons_ne_nil _ _)
  exact htokens

end Blastit.Fw.PidParser
