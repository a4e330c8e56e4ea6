import Blastit.Fw.PidParser

/-!
Responses as the adapter prints them in one line, and what the decoder makes of them.
-/

namespace Blastit.Fw.PidParser

open Blastit.Lib.Text Blastit.Fw.Uart

/-- One record of a response: the mode and the PID asked for, and as many data bytes as
the PID has. -/
structure Record where
  mode : Byte
  pid : Byte
  data : List Byte
  mode_mem : mode = 0x01 ∨ mode = 0x21
  size : data.length = obd2GetPidResultSize ((mode.setWidth 16 <<< 8) ||| pid.setWidth 16)
  data_ne : data ≠ []

namespace Record

def code (r : Record) : BitVec 16 := (r.mode.setWidth 16 <<< 8) ||| r.pid.setWidth 16

def bytes (r : Record) : List Byte := (r.mode + 0x40) :: r.pid :: r.data

end Record

/-- `c` is a hex digit for `v`, in either letter case. -/
def HexDigit (v : ℕ) (c : Byte) : Prop :=
  if v < 10 then c.toNat = 0x30 + v else c.toNat = 0x41 + (v - 10) ∨ c.toNat = 0x61 + (v - 10)

/-- `t` prints the bytes: two hex digits and a space each. -/
inductive Prints : List Byte → List Byte → Prop
  | nil : Prints [] []
  | cons {b : Byte} {bs t : List Byte} {hi lo : Byte} (hhi : HexDigit (b.toNat / 16) hi)
      (hlo : HexDigit (b.toNat % 16) lo) (ht : Prints bs t) :
    Prints (b :: bs) (hi :: lo :: 0x20 :: t)

/-- A response: one to five records, and a text that prints them in one line. -/
structure Response where
  records : List Record
  tokens : List Byte
  ne_nil : records ≠ []
  length_le : records.length ≤ pidStorageSize
  prints : Prints (records.flatMap Record.bytes) tokens

def Response.text (R : Response) : List Byte := R.tokens ++ ascii "\r>"

/-- The decoder has returned `true` and stored the records. -/
def Decodes (R : Response) (res : Except Fault (Bool × Data)) : Prop :=
  ∃ d, res = .ok (true, d) ∧ ∀ i : Fin pidStorageSize,
    match R.records[i]? with
    | some r => (d.pids i).code = r.code ∧
      ∀ (j : Fin pidTMaxN) (b : Byte), r.data[j]? = some b → (d.pids i).n j = b
    | none => (d.pids i).code = 0

/-! ### What the texts are made of -/

/-- The characters a response prints bytes with. -/
def Token (c : Byte) : Prop := c = 0x20 ∨ ∃ v < 16, HexDigit v c

lemma Prints.token {bs t : List Byte} (h : Prints bs t) : ∀ c ∈ t, Token c := by
  induction h with
  | nil => simp
  | @cons b bs t hi lo hhi hlo _ ih =>
    have hb := b.isLt
    intro c hc
    simp only [List.mem_cons] at hc
    rcases hc with rfl | rfl | rfl | hc
    · exact Or.inr ⟨_, by omega, hhi⟩
    · exact Or.inr ⟨_, by omega, hlo⟩
    · exact Or.inl rfl
    · exact ih c hc

lemma HexDigit.range {v : ℕ} {c : Byte} (hv : v < 16) (h : HexDigit v c) :
    (0x30 ≤ c.toNat ∧ c.toNat ≤ 0x39) ∨ (0x41 ≤ c.toNat ∧ c.toNat ≤ 0x46) ∨
      (0x61 ≤ c.toNat ∧ c.toNat ≤ 0x66) := by
  unfold HexDigit at h
  split_ifs at h <;> omega

/-- No other character occurs in a response. -/
lemma Response.not_mem (R : Response) {c : Byte} (htok : ¬ Token c) (hend : c ∉ ascii "\r>") :
    c ∉ R.text := by
  unfold Response.text
  rw [List.mem_append]
  rintro (h | h)
  · exact htok (R.prints.token c h)
  · exact hend h

lemma not_token {c : Byte} (h : c.toNat ≠ 0x20)
    (hr : ¬((0x30 ≤ c.toNat ∧ c.toNat ≤ 0x39) ∨ (0x41 ≤ c.toNat ∧ c.toNat ≤ 0x46) ∨
      (0x61 ≤ c.toNat ∧ c.toNat ≤ 0x66))) : ¬ Token c := by
  rintro (rfl | ⟨v, hv, hc⟩)
  · exact h rfl
  · exact hr (hc.range hv)

/-- **No response in one line is decoded**, whatever stands behind its NUL: its lines have no
colon, so the cursor goes to the null pointer before the first character is read. -/
theorem not_decodes (R : Response) (z : List Byte) (d : Data) :
    ¬ Decodes R (obd2ParsePidResponse (R.text ++ 0 :: z) d) := by
  have hnot : ∀ c : Byte, c.toNat ≠ 0x20 →
      ¬((0x30 ≤ c.toNat ∧ c.toNat ≤ 0x39) ∨ (0x41 ≤ c.toNat ∧ c.toNat ≤ 0x46) ∨
        (0x61 ≤ c.toNat ∧ c.toNat ≤ 0x66)) → c ∉ ascii "\r>" → c ∉ R.text :=
    fun c h hr hend => R.not_mem (not_token h hr) hend
  have href : refused R.text = false := by
    unfold refused
    rw [strstr_eq_none (c := 0x3f) (by decide) (hnot _ (by decide) (by decide) (by decide)),
      strstr_eq_none (c := 0x55) (by decide) (hnot _ (by decide) (by decide) (by decide))]
    rfl
  have hdata : strstr R.text (ascii "NO DATA") = none :=
    strstr_eq_none (c := 0x4e) (by decide) (hnot _ (by decide) (by decide) (by decide))
  have htext := stringAt_append (hnot 0 (by decide) (by decide) (by decide)) z
  rw [parse_without_colon htext (hnot 0x3a (by decide) (by decide) (by decide)) ?_ href hdata]
  · rintro ⟨_, h, -⟩
    cases h
  · exact List.mem_append_right _ (by decide)

/-- The boost record `41 0B 64`. -/
def boostResponse : Response where
  records := [⟨0x01, 0x0b, [0x64], Or.inl rfl, rfl, by simp⟩]
  tokens := ascii "41 0B 64 "
  ne_nil := by simp
  length_le := by simp
  prints := .cons (by unfold HexDigit; decide) (by unfold HexDigit; decide)
    (.cons (by unfold HexDigit; decide) (by unfold HexDigit; decide)
      (.cons (by unfold HexDigit; decide) (by unfold HexDigit; decide) .nil))

/-- It is not decoded, whatever the variables hold. -/
theorem boostResponse_nullCursor :
    boostResponse.text = ascii "41 0B 64 \r>" ∧
      ∀ z d, obd2ParsePidResponse (boostResponse.text ++ 0 :: z) d = .error .nullCursor ∧
        ¬ Decodes boostResponse (obd2ParsePidResponse (boostResponse.text ++ 0 :: z) d) := by
  refine ⟨by decide, fun z d => ?_⟩
  have hfault : obd2ParsePidResponse (boostResponse.text ++ 0 :: z) d = .error .nullCursor :=
    parse_without_colon (stringAt_append (by decide) z) (by decide) (by decide) (by decide)
      (by decide)
  refine ⟨hfault, ?_⟩
  rw [hfault]
  rintro ⟨_, h, -⟩
  cases h

end Blastit.Fw.PidParser
