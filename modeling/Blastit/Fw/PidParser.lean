import Blastit.Fw.Uart
import Blastit.Fw.Display
import Blastit.Lib.Text

/-!
`obd2.c`: decoding a PID response.

The response is the array it stands in, and the cursor an index into that array. A null
pointer, and a read or a store outside an array, are faults. The loop runs on fuel: no
round leaves both the cursor and `start_line` alone, so twice the length of the array is
enough.
-/

namespace Blastit.Fw.PidParser

open Blastit.Lib.Text Blastit.Fw.Uart Blastit.Fw.Display

/-! ### Data -/

abbrev pidStorageSize : ℕ := 5
abbrev pidTMaxN : ℕ := 29

structure Pid where
  code : BitVec 16
  n : Fin pidTMaxN → Byte

abbrev Pids := Fin pidStorageSize → Pid

def noPids : Pids := fun _ => ⟨0, fun _ => 0⟩

structure Data where
  pids : Pids
  boostRef : ℚ
  displayParams : DisplayParams

def obd2GetPidResultSize (pid : BitVec 16) : ℕ :=
  if pid = 0x0134 then 4
  else if pid = 0x010b then 1
  else if pid = 0x0104 then 1
  else if pid = 0x015c then 1
  else if pid = 0x2101 then 29
  else if pid = 0x0105 then 1
  else if pid = 0x010f then 1
  else if pid = 0x0133 then 1
  else 0

def isdigit (ch : Byte) : Bool := 0x30 ≤ ch && ch ≤ 0x39
def isupper (ch : Byte) : Bool := 0x41 ≤ ch && ch ≤ 0x5a
def islower (ch : Byte) : Bool := 0x61 ≤ ch && ch ≤ 0x7a
def isalpha (ch : Byte) : Bool := isupper ch || islower ch
def toupper (ch : Byte) : Byte := if islower ch then ch - 0x20 else ch

/-- `tohex`; a letter counts from zero. -/
def tohex (ch : Byte) : ℕ :=
  if isdigit ch then (ch - 0x30).toNat
  else if isalpha ch then (toupper ch - 0x41).toNat
  else 0

def ctof (c : ℚ) : ℚ := c * (9 / 5) + 32

/-- One round of the loop of `obd2_update_pid_values`. -/
def updatePidValue (d : Data) (i : Fin pidStorageSize) : Data :=
  let p := d.pids i
  let n (k : Fin pidTMaxN) : ℚ := (p.n k).toNat
  if p.code = 0x0134 then
    { d with displayParams.afr := (n 0 * 2560 - n 1 * 10) / (32768 * 147) }
  else if p.code = 0x010b then
    { d with displayParams.boost := (n 0 - d.boostRef) * (29 / 2) / 100 }
  else if p.code = 0x0104 then { d with displayParams.load := n 0 * 100 / 255 }
  else if p.code = 0x015c then { d with displayParams.oilTemp := n 0 * (9 / 5) / 32 }
  else if p.code = 0x2101 then { d with displayParams.oilTemp := ctof (n 28 - 40) }
  else if p.code = 0x0105 then { d with displayParams.coolantTemp := ctof (n 0 - 40) }
  else if p.code = 0x010f then { d with displayParams.intakeTemp := ctof (n 0 - 40) }
  else if p.code = 0x0133 then { d with boostRef := n 0 }
  else d

def obd2UpdatePidValues (d : Data) : Data := (List.finRange pidStorageSize).foldl updatePidValue d

/-! ### The loop -/

/-- The local variables of `obd2_parse_pid_response`, with `pids`. -/
structure Cursor where
  ptr : ℕ
  startLine : Bool
  skipDigit : Bool
  digitSkipped : Bool
  iPid : ℤ
  iPidEnd : ℕ
  pidSize : ℤ
  pids : Pids

def deref (str : List Byte) (i : ℕ) : Except Fault Byte :=
  match str[i]? with
  | some ch => .ok ch
  | none => .error .pastEnd

/-- `strstr(ptr, pat)`; `none` is the null pointer. A search in vain goes on to the NUL. -/
def strstrFrom (str : List Byte) (ptr : ℕ) (pat : List Byte) : Except Fault (Option ℕ) :=
  match strstr (cstr (str.drop ptr)) pat with
  | some i => .ok (some (ptr + i))
  | none => if (0 : Byte) ∈ str.drop ptr then .ok none else .error .pastEnd

/-- `a < b` for pointers, the null pointer below all others. -/
def ptrLt : Option ℕ → Option ℕ → Bool
  | none, some _ => true
  | some a, some b => decide (a < b)
  | _, none => false

def pidAt (c : Cursor) : Except Fault (Fin pidStorageSize) :=
  if h : 0 ≤ c.iPid ∧ c.iPid < pidStorageSize then .ok ⟨c.iPid.toNat, by omega⟩
  else .error .pidIndex

/-- What is done with the value of a token that is not skipped. -/
def storeToken (x : ℤ) (c : Cursor) : Except Fault Cursor := do
  if c.pidSize = 0 then
    -- the mode of the next record
    let c := { c with iPid := c.iPid + 1, iPidEnd := 0, pidSize := 1 }
    let i ← pidAt c
    let code := BitVec.ofInt 16 ((x - 0x40) * 256)
    return { c with pids := Function.update c.pids i { c.pids i with code := code } }
  else
    let i ← pidAt c
    if (c.pids i).code &&& 0xFF = 0 then
      -- its PID
      let code := (c.pids i).code ||| BitVec.ofInt 16 x
      return { c with
        pids := Function.update c.pids i { c.pids i with code := code }
        pidSize := obd2GetPidResultSize code }
    else if 0 ≤ c.iPid then
      -- its data
      if h : c.iPidEnd < pidTMaxN then
        let p := c.pids i
        return { c with
          pids := Function.update c.pids i
            { p with n := Function.update p.n ⟨c.iPidEnd, h⟩ (BitVec.ofInt 8 x) }
          iPidEnd := c.iPidEnd + 1
          pidSize := c.pidSize - 1 }
      else .error .dataIndex
    else return c

/-- One round of the loop. -/
def parseStep (str : List Byte) (c : Cursor) : Except Fault Cursor := do
  if c.startLine then
    let next ← strstrFrom str c.ptr (ascii ":")
    let eol ← strstrFrom str c.ptr (ascii "\r")
    if ptrLt next eol then
      match next with
      | none => .error .nullCursor
      | some next =>
        return { c with
          startLine := false
          skipDigit := if !c.digitSkipped then true else c.skipDigit
          ptr := next + 1 }
    else return { c with startLine := false }
  else
    let ch ← deref str c.ptr
    if ch = 0x0d then return { c with startLine := true, ptr := c.ptr + 1 }
    else if ch ≠ 0x20 ∧ ch ≠ 0x09 then
      let ch' ← deref str (c.ptr + 1)
      if ch' ≠ 0 then
        let c ←
          if c.skipDigit then pure { c with skipDigit := false, digitSkipped := true }
          else storeToken ((tohex ch <<< 8 ||| tohex ch' : ℕ) : ℤ) c
        return { c with ptr := c.ptr + 3 }
      else return { c with ptr := c.ptr + 1 }
    else return { c with ptr := c.ptr + 1 }

/-- `while (*ptr)`. -/
def parseLoop (str : List Byte) : ℕ → Cursor → Except Fault Cursor
  | 0, _ => .error .waiting
  | k + 1, c => do
    let ch ← deref str c.ptr
    if ch = 0 then return c
    else
      let c ← parseStep str c
      parseLoop str k c

def start : Cursor := ⟨0, true, false, false, -1, 0, 0, noPids⟩

/-- The adapter's refusals. -/
def refused (s : List Byte) : Bool :=
  (strstr s (ascii "?")).isSome || (strstr s (ascii "UNABLE TO CONNECT")).isSome

def obd2ParseAtResponse (s : List Byte) : Bool := !refused s

/-- `obd2_parse_pid_response`: what it returns, and what it has decoded. -/
def obd2ParsePidResponse (str : List Byte) (d : Data) : Except Fault (Bool × Data) :=
  let d := { d with pids := noPids }
  -- `OBD2_PUTSTR` prints the response, up to its NUL
  if (0 : Byte) ∉ str then .error .pastEnd
  else if refused (cstr str) then .ok (false, d)
  else if (strstr (cstr str) (ascii "NO DATA")).isSome then .ok (true, d)
  else do
    let c ← parseLoop str (2 * str.length + 4) start
    return (true, obd2UpdatePidValues { d with pids := c.pids })

/-! ### Reading a string in its array -/

section
variable {str s t : List Byte} {i : ℕ} {a ch : Byte} {d : Data}

lemma deref_cons (h : StringAt str i (ch :: t)) : deref str i = .ok ch := by
  rw [deref, h.getElem?_cons]

lemma deref_nil (h : StringAt str i []) : deref str i = .ok 0 := by
  rw [deref, h.getElem?_nil]

lemma deref_end (h : str.length ≤ i) : deref str i = .error .pastEnd := by
  rw [deref, List.getElem?_eq_none h]

lemma strstrFrom_none (h : StringAt str i s) (ha : a ∉ s) : strstrFrom str i [a] = .ok none := by
  rw [strstrFrom, h.cstr_drop, strstr_eq_none List.mem_cons_self ha]
  exact if_pos h.mem_drop

lemma strstrFrom_some {pre : List Byte} (h : StringAt str i (pre ++ a :: t)) (ha : a ∉ pre) :
    strstrFrom str i [a] = .ok (some (i + pre.length)) := by
  rw [strstrFrom, h.cstr_drop, strstr_append ha]

lemma obd2ParsePidResponse_eq (h : StringAt str 0 s) :
    obd2ParsePidResponse str d =
      if refused s then .ok (false, { d with pids := noPids })
      else if (strstr s (ascii "NO DATA")).isSome then .ok (true, { d with pids := noPids })
      else do
        let c ← parseLoop str (2 * str.length + 4) start
        return (true, obd2UpdatePidValues { d with pids := c.pids }) := by
  have hmem := h.mem_drop
  have htext := h.cstr_drop
  rw [List.drop_zero] at hmem htext
  rw [obd2ParsePidResponse, if_neg (not_not.mpr hmem), htext]

/-! ### Texts without a colon -/

/-- With a line end but no colon, the first comparison sees a null pointer below another. -/
lemma parseStep_start (h : StringAt str 0 s) (hcolon : (0x3a : Byte) ∉ s)
    (heol : (0x0d : Byte) ∈ s) : parseStep str start = .error .nullCursor := by
  obtain ⟨line, t, rfl, hline⟩ := List.eq_append_cons_of_mem heol
  have hnext : strstrFrom str 0 (ascii ":") = .ok none := strstrFrom_none h hcolon
  have hend : strstrFrom str 0 (ascii "\r") = .ok (some (0 + line.length)) :=
    strstrFrom_some h hline
  simp only [parseStep, start, if_true, hnext, hend, bind, Except.bind, ptrLt]

/-- **A response in one line sends the cursor to the null pointer**: no text with a line
end and without a colon is decoded, unless the adapter refuses or has no data. -/
theorem parse_without_colon (h : StringAt str 0 s) (hcolon : (0x3a : Byte) ∉ s)
    (heol : (0x0d : Byte) ∈ s) (href : refused s = false)
    (hdata : strstr s (ascii "NO DATA") = none) :
    obd2ParsePidResponse str d = .error .nullCursor := by
  have hloop : parseLoop str (2 * str.length + 4) start = .error .nullCursor := by
    obtain ⟨ch, t, rfl⟩ := List.exists_cons_of_ne_nil (List.ne_nil_of_mem heol)
    have hne : ch ≠ 0 := fun h0 => h.free (h0 ▸ List.mem_cons_self)
    rw [show 2 * str.length + 4 = (2 * str.length + 3) + 1 from rfl, parseLoop]
    rw [show start.ptr = 0 from rfl, deref_cons h]
    simp only [bind, Except.bind, hne, if_false, parseStep_start h hcolon heol]
  simp [obd2ParsePidResponse_eq h, href, hdata, hloop, bind, Except.bind]

end

end Blastit.Fw.PidParser
