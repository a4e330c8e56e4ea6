import Blastit.Fw.Uart
import Blastit.Lib.Clocked
import Blastit.Lib.Text

/-!
`uart_readline`: putting lines together from the bytes the receiver has.

What the hardware does between two reads of the status register is a poll: the bytes that
have arrived since the last one, and the timer the timeout is checked against. The loop
runs on fuel; a call that does not wait (`UART_FLAG_NONE`) needs no more than `lineFuel`.
-/

namespace Blastit.Fw.Line

open Blastit.Lib.Text Blastit.Lib.Clocked Blastit.Fw.Uart

abbrev uartRxBufsz : ℕ := 1024

/-- What a read of the status register finds. -/
structure Poll where
  arrived : List Byte
  ticks : BitVec 32

/-- The variables of `uart.c`, the receiver's buffer and the number of status reads so far. -/
structure Port where
  uart : Uart.State
  rx : List Byte
  now : ℕ

/-- A read of the status register. -/
def Port.status (env : ℕ → Poll) (p : Port) : Port :=
  { p with rx := p.rx ++ (env p.now).arrived, now := p.now + 1 }

/-- What `memset` and `strncpy` leave in a buffer of `bufsz` characters. -/
def copyLine (bufsz : ℕ) (line : List Byte) : List Byte :=
  let size := if bufsz - 1 < line.length then bufsz - 1 else line.length
  let text := cstr (line.take size)
  text ++ List.replicate (bufsz - text.length) 0

lemma cstr_copyLine (bufsz : ℕ) (line : List Byte) :
    cstr (copyLine bufsz line) = cstr (line.take (bufsz - 1)) := by
  unfold copyLine
  dsimp only
  rw [cstr_append_zeros (not_mem_cstr _)]
  split
  · rfl
  · rw [List.take_of_length_le le_rfl, List.take_of_length_le (by omega)]

/-- What a call returns and writes to `str`, and the port it leaves. -/
structure Result where
  rc : ℤ
  str : Option (List Byte)
  port : Port

/-- One round of the loop: a result, or the next `rc`. -/
def readRound (env : ℕ → Poll) (sync : Bool) (bufsz : ℕ) (rc : ℤ) (p : Port) :
    Result ⊕ (ℤ × Port) :=
  let u := p.uart
  if u.eol then
    .inl {
      rc := u.rxBuf.length
      str := if 0 < u.rxBuf.length then some (copyLine bufsz u.rxBuf) else none
      port := { p with uart := { u with eol := false, rxBuf := [] } } }
  else
    let ticks := (env p.now).ticks
    let p := p.status env
    match p.rx with
    | c :: rx =>
      if u.rxBuf.length = uartRxBufsz then .inr (rc, { p with uart := { u with eol := true } })
      else
        let eol := decide (c = u.uartEol)
        .inr (if eol then rc else uartErrorRxBusy,
          { p with rx := rx, uart := { u with rxBuf := u.rxBuf ++ [c], eol := eol } })
    | [] =>
      if u.uartRxTimeout < ticks then .inl ⟨uartErrorTimeout, none, p⟩
      else if !sync then .inl ⟨rc, none, p⟩
      else .inr (rc, p)

def readLoop (env : ℕ → Poll) (sync : Bool) (bufsz : ℕ) : ℕ → ℤ → Port → Option Result
  | 0, _, _ => none
  | k + 1, rc, p =>
    match readRound env sync bufsz rc p with
    | .inl r => some r
    | .inr (rc, p) => readLoop env sync bufsz k rc p

def uartReadline (env : ℕ → Poll) (sync : Bool) (bufsz fuel : ℕ) (p : Port) : Option Result :=
  readLoop env sync bufsz fuel 0 p

/-! ### Lines -/

/-- A line: it ends at its first `uart_eol`, or fills the buffer without one. -/
def IsLine (eol : Byte) (l : List Byte) : Prop :=
  (∃ t, l = t ++ [eol] ∧ eol ∉ t ∧ l.length ≤ uartRxBufsz) ∨ (l.length = uartRxBufsz ∧ eol ∉ l)

def Part (eol : Byte) (l : List Byte) : Prop := eol ∉ l ∧ l.length ≤ uartRxBufsz

/-- The port between two calls: what is buffered is part of a line. -/
structure Between (p : Port) : Prop where
  eol : p.uart.eol = false
  part : Part p.uart.uartEol p.uart.rxBuf

/-- The bytes that arrive before the status read `t`. -/
abbrev received (env : ℕ → Poll) (t : ℕ) : List Byte := collect (fun k => (env k).arrived) t

/-- Of what has arrived, `c` has been read. -/
def Feeds (env : ℕ → Poll) (p : Port) (c : List Byte) : Prop := received env p.now = c ++ p.rx

variable {env : ℕ → Poll} {sync : Bool} {bufsz : ℕ} {p₀ p : Port} {c taken : List Byte} {rc : ℤ}

lemma Feeds.unique {c' : List Byte} (h : Feeds env p c) (h' : Feeds env p c') : c' = c :=
  List.append_cancel_right (h'.symm.trans h)

/-- What a call can do: return a line, time out, or find the receiver empty. -/
inductive Outcome (env : ℕ → Poll) (sync : Bool) (bufsz : ℕ) (p₀ : Port) (c : List Byte) :
    Result → Prop
  | line {taken : List Byte} {p : Port} (hf : Feeds env p (c ++ taken))
    (hline : IsLine p₀.uart.uartEol (p₀.uart.rxBuf ++ taken))
    (hu : p.uart = { p₀.uart with eol := false, rxBuf := [] }) :
    Outcome env sync bufsz p₀ c
      ⟨(p₀.uart.rxBuf ++ taken).length, some (copyLine bufsz (p₀.uart.rxBuf ++ taken)), p⟩
  | timeout {taken : List Byte} {p : Port} (hf : Feeds env p (c ++ taken))
    (hpart : Part p₀.uart.uartEol (p₀.uart.rxBuf ++ taken))
    (hu : p.uart = { p₀.uart with eol := false, rxBuf := p₀.uart.rxBuf ++ taken }) :
    Outcome env sync bufsz p₀ c ⟨uartErrorTimeout, none, p⟩
  | idle {taken : List Byte} {p : Port} (hsync : sync = false) (hf : Feeds env p (c ++ taken))
    (hpart : Part p₀.uart.uartEol (p₀.uart.rxBuf ++ taken))
    (hu : p.uart = { p₀.uart with eol := false, rxBuf := p₀.uart.rxBuf ++ taken })
    (hfirst : taken = [] → (p₀.status env).rx = []) :
    Outcome env sync bufsz p₀ c ⟨if taken = [] then uartReady else uartErrorRxBusy, none, p⟩

/-! ### One round -/

lemma readRound_eol (h : p.uart.eol = true) (hpos : 0 < p.uart.rxBuf.length) :
    readRound env sync bufsz rc p = .inl ⟨p.uart.rxBuf.length, some (copyLine bufsz p.uart.rxBuf),
      { p with uart := { p.uart with eol := false, rxBuf := [] } }⟩ := by
  simp only [readRound, h, hpos, if_true]

/-- A full buffer is a line as soon as another byte is there. -/
lemma readRound_full {b : Byte} {rx : List Byte} (h : p.uart.eol = false)
    (hrx : (p.status env).rx = b :: rx) (hfull : p.uart.rxBuf.length = uartRxBufsz) :
    readRound env sync bufsz rc p =
      .inr (rc, { p.status env with uart := { p.uart with eol := true } }) := by
  simp [readRound, h, hrx, hfull]

lemma readRound_byte {b : Byte} {rx : List Byte} (h : p.uart.eol = false)
    (hrx : (p.status env).rx = b :: rx) (hfull : p.uart.rxBuf.length ≠ uartRxBufsz) :
    readRound env sync bufsz rc p =
      .inr (if b = p.uart.uartEol then rc else uartErrorRxBusy,
        { p.status env with
          rx := rx
          uart := { p.uart with
            rxBuf := p.uart.rxBuf ++ [b], eol := decide (b = p.uart.uartEol) } }) := by
  simp [readRound, h, hrx, hfull]

lemma readRound_empty (h : p.uart.eol = false) (hrx : (p.status env).rx = []) :
    readRound env sync bufsz rc p =
      if p.uart.uartRxTimeout < (env p.now).ticks then .inl ⟨uartErrorTimeout, none, p.status env⟩
      else if sync = false then .inl ⟨rc, none, p.status env⟩
      else .inr (rc, p.status env) := by
  cases sync <;> simp [readRound, h, hrx]

/-! ### What a call reads -/

/-- The bytes there are for a call after its first `m` status reads. -/
def Port.available (env : ℕ → Poll) (p : Port) (m : ℕ) : List Byte :=
  p.rx ++ collect (fun k => (env (p.now + k)).arrived) m

/-- After `m` status reads the call has read the bytes `taken`. A call that does not wait
has found a byte at each of its reads. -/
structure Takes (env : ℕ → Poll) (sync : Bool) (p₀ : Port) (taken : List Byte) (m : ℕ)
    (p : Port) : Prop where
  now : p.now = p₀.now + m
  bytes : p₀.available env m = taken ++ p.rx
  found : sync = false → ∀ i < taken.length, i < (p₀.available env (i + 1)).length

def Open (u : Uart.State) (taken : List Byte) : Prop :=
  u.uartEol ∉ taken ∧ (u.rxBuf ++ taken).length ≤ uartRxBufsz

/-- The characters read complete a line: the last of them is the first `uart_eol`, or the
buffer is full without one and the receiver is not empty. -/
def Completes (u : Uart.State) (taken rx : List Byte) : Prop :=
  (∃ t, taken = t ++ [u.uartEol] ∧ u.uartEol ∉ t ∧ (u.rxBuf ++ taken).length ≤ uartRxBufsz) ∨
    (u.uartEol ∉ taken ∧ (u.rxBuf ++ taken).length = uartRxBufsz ∧ rx ≠ [])

/-- How a call ends: it returns a line, times out, or finds the receiver empty. -/
inductive Ending (env : ℕ → Poll) (sync : Bool) (bufsz : ℕ) (p₀ : Port) : Result → Prop
  | line {taken : List Byte} {m : ℕ} {p : Port} (ht : Takes env sync p₀ taken m p)
    (hline : Completes p₀.uart taken p.rx) (hreads : sync = false → m ≤ taken.length + 1)
    (hu : p.uart = { p₀.uart with eol := false, rxBuf := [] }) :
    Ending env sync bufsz p₀
      ⟨(p₀.uart.rxBuf ++ taken).length, some (copyLine bufsz (p₀.uart.rxBuf ++ taken)), p⟩
  | timeout {taken : List Byte} {m : ℕ} {p : Port} (ht : Takes env sync p₀ taken (m + 1) p)
    (hopen : Open p₀.uart taken) (hrx : p.rx = [])
    (htime : p₀.uart.uartRxTimeout < (env (p₀.now + m)).ticks)
    (hreads : sync = false → m = taken.length)
    (hu : p.uart = { p₀.uart with eol := false, rxBuf := p₀.uart.rxBuf ++ taken }) :
    Ending env sync bufsz p₀ ⟨uartErrorTimeout, none, p⟩
  | idle {taken : List Byte} {p : Port} (hsync : sync = false)
    (ht : Takes env sync p₀ taken (taken.length + 1) p) (hopen : Open p₀.uart taken)
    (hrx : p.rx = []) (htime : ¬ p₀.uart.uartRxTimeout < (env (p₀.now + taken.length)).ticks)
    (hu : p.uart = { p₀.uart with eol := false, rxBuf := p₀.uart.rxBuf ++ taken }) :
    Ending env sync bufsz p₀ ⟨if taken = [] then uartReady else uartErrorRxBusy, none, p⟩

/-- The loop between two rounds. -/
structure Mid (env : ℕ → Poll) (sync : Bool) (p₀ : Port) (taken : List Byte) (m : ℕ) (rc : ℤ)
    (p : Port) : Prop where
  takes : Takes env sync p₀ taken m p
  uart : p.uart = { p₀.uart with eol := p.uart.eol, rxBuf := p₀.uart.rxBuf ++ taken }
  line : p.uart.eol = true → Completes p₀.uart taken p.rx
  opens : p.uart.eol = false → Open p₀.uart taken
  rc : p.uart.eol = false → rc = if taken = [] then uartReady else uartErrorRxBusy
  reads : sync = false → p.uart.eol = false → m = taken.length
  readsLine : sync = false → m ≤ taken.length + 1

lemma Completes.length_pos {u : Uart.State} {rx : List Byte} (h : Completes u taken rx) :
    0 < (u.rxBuf ++ taken).length := by
  rcases h with ⟨t, rfl, -, -⟩ | ⟨-, h, -⟩
  · simp
  · rw [h]
    decide

lemma available_succ (env : ℕ → Poll) (p : Port) (m : ℕ) :
    p.available env (m + 1) = p.available env m ++ (env (p.now + m)).arrived := by
  rw [Port.available, collect_succ, ← List.append_assoc]
  rfl

lemma Takes.status {m : ℕ} (h : Takes env sync p₀ taken m p) :
    Takes env sync p₀ taken (m + 1) (p.status env) where
  now := by
    show p.now + 1 = _
    rw [h.now, Nat.add_assoc]
  bytes := by
    rw [available_succ, h.bytes, List.append_assoc, ← h.now]
    rfl
  found := h.found

lemma mid_zero (heol : p₀.uart.eol = false) (hlen : p₀.uart.rxBuf.length ≤ uartRxBufsz) :
    Mid env sync p₀ [] 0 0 p₀ where
  takes := ⟨rfl, by simp [Port.available], by simp⟩
  uart := by rw [List.append_nil]
  line h := by simp [heol] at h
  opens _ := ⟨by simp, by simpa using hlen⟩
  rc _ := rfl
  reads _ _ := rfl
  readsLine _ := Nat.zero_le _

section
variable {m : ℕ} (hm : Mid env sync p₀ taken m rc p)
include hm

lemma Mid.rxBuf : p.uart.rxBuf = p₀.uart.rxBuf ++ taken := by rw [hm.uart]

lemma Mid.uartEol : p.uart.uartEol = p₀.uart.uartEol := by rw [hm.uart]

lemma Mid.uart_open (h : p.uart.eol = false) :
    p.uart = { p₀.uart with eol := false, rxBuf := p₀.uart.rxBuf ++ taken } := by
  rw [← h]
  exact hm.uart

lemma Mid.ending {r : Result} (hr : readRound env sync bufsz rc p = .inl r) :
    Ending env sync bufsz p₀ r := by
  have hbuf := hm.rxBuf
  cases heol : p.uart.eol with
  | true =>
    have hline := hm.line heol
    rw [readRound_eol heol (by rw [hbuf]; exact hline.length_pos), hbuf] at hr
    cases hr
    exact .line ⟨hm.takes.now, hm.takes.bytes, hm.takes.found⟩ hline hm.readsLine (by rw [hm.uart])
  | false =>
    cases hrx : (p.status env).rx with
    | cons b rx =>
      by_cases hfull : p.uart.rxBuf.length = uartRxBufsz
      · rw [readRound_full heol hrx hfull] at hr
        cases hr
      · rw [readRound_byte heol hrx hfull] at hr
        cases hr
    | nil =>
      have htimer : p.uart.uartRxTimeout < (env p.now).ticks ↔
          p₀.uart.uartRxTimeout < (env (p₀.now + m)).ticks := by
        rw [← hm.takes.now, hm.uart]
      rw [readRound_empty heol hrx] at hr
      split_ifs at hr with htime hsync
      · cases hr
        exact .timeout hm.takes.status (hm.opens heol) hrx (htimer.mp htime)
          (fun hs => hm.reads hs heol) (hm.uart_open heol)
      · cases hr
        have hreads := hm.reads hsync heol
        rw [htimer, hreads] at htime
        rw [hm.rc heol]
        exact .idle hsync (hreads ▸ hm.takes.status) (hm.opens heol) hrx htime (hm.uart_open heol)

lemma Mid.next_byte {b : Byte} {rx : List Byte} (heol : p.uart.eol = false)
    (hrx : (p.status env).rx = b :: rx) (hfull : p.uart.rxBuf.length ≠ uartRxBufsz) :
    Mid env sync p₀ (taken ++ [b]) (m + 1) (if b = p.uart.uartEol then rc else uartErrorRxBusy)
      { p.status env with
        rx := rx
        uart := { p.uart with
          rxBuf := p.uart.rxBuf ++ [b], eol := decide (b = p.uart.uartEol) } } := by
  have hstatus := hm.takes.status
  have hbytes := hstatus.bytes
  rw [hrx] at hbytes
  obtain ⟨hno, hle⟩ := hm.opens heol
  have hlen : (p₀.uart.rxBuf ++ (taken ++ [b])).length ≤ uartRxBufsz := by
    rw [hm.rxBuf] at hfull
    rw [← List.append_assoc, List.length_append, List.length_singleton]
    omega
  refine ⟨⟨hstatus.now, ?_, fun hs i hi => ?_⟩, ?_, ?_, ?_, ?_, ?_, fun hs => ?_⟩
  · rw [hbytes, List.append_assoc]
    rfl
  · rw [List.length_append, List.length_singleton] at hi
    rcases Nat.lt_succ_iff_lt_or_eq.mp hi with hlt | rfl
    · exact hm.takes.found hs i hlt
    · rw [← hm.reads hs heol, hbytes, List.length_append, List.length_cons, ← hm.reads hs heol]
      omega
  · rw [hm.rxBuf, List.append_assoc, hm.uart]
  · simp only [decide_eq_true_eq, hm.uartEol]
    rintro rfl
    exact .inl ⟨taken, rfl, hno, hlen⟩
  · simp only [decide_eq_false_iff_not, hm.uartEol]
    intro hb
    refine ⟨?_, hlen⟩
    rw [List.mem_append, List.mem_singleton]
    rintro (h | h)
    · exact hno h
    · exact hb h.symm
  · simp only [decide_eq_false_iff_not]
    intro hb
    simp [hb]
  · intro hs _
    rw [hm.reads hs heol, List.length_append, List.length_singleton]
  · rw [hm.reads hs heol, List.length_append]
    omega

lemma Mid.next {rc' : ℤ} {p' : Port} (hr : readRound env sync bufsz rc p = .inr (rc', p')) :
    ∃ taken' m', Mid env sync p₀ taken' m' rc' p' := by
  cases heol : p.uart.eol with
  | true =>
    rw [readRound_eol heol (by rw [hm.rxBuf]; exact (hm.line heol).length_pos)] at hr
    cases hr
  | false =>
    have hopen := hm.opens heol
    cases hrx : (p.status env).rx with
    | cons b rx =>
      by_cases hfull : p.uart.rxBuf.length = uartRxBufsz
      · -- the buffer is full: nothing is read, and the line is complete
        rw [readRound_full heol hrx hfull] at hr
        cases hr
        have hstatus := hm.takes.status
        refine ⟨taken, m + 1, ⟨hstatus.now, hstatus.bytes, hstatus.found⟩, by rw [hm.uart],
          fun _ => .inr ⟨hopen.1, ?_, ?_⟩, ?_, ?_, ?_, fun hs => ?_⟩
        · rw [← hm.rxBuf, hfull]
        · simp [hrx]
        · simp
        · simp
        · simp
        · rw [hm.reads hs heol]
      · rw [readRound_byte heol hrx hfull] at hr
        cases hr
        exact ⟨_, _, hm.next_byte heol hrx hfull⟩
    | nil =>
      rw [readRound_empty heol hrx] at hr
      split_ifs at hr with htime hsync
      cases hr
      have hstatus := hm.takes.status
      exact ⟨taken, m + 1, hstatus, hm.uart, fun h => absurd (heol.symm.trans h) (by decide),
        hm.opens, hm.rc, fun h => absurd h hsync, fun h => absurd h hsync⟩

end

/-! ### A call -/

lemma readLoop_ending {k m : ℕ} {r : Result} (hm : Mid env sync p₀ taken m rc p)
    (h : readLoop env sync bufsz k rc p = some r) : Ending env sync bufsz p₀ r := by
  induction k generalizing taken m rc p with
  | zero => cases h
  | succ k ih =>
    simp only [readLoop] at h
    cases hr : readRound env sync bufsz rc p with
    | inl r' =>
      rw [hr] at h
      cases h
      exact hm.ending hr
    | inr q =>
      rw [hr] at h
      obtain ⟨taken', m', hm'⟩ := hm.next hr
      exact ih hm' h

/-- **How a call of `uart_readline` ends**, whenever it returns. -/
theorem uartReadline_ending {fuel : ℕ} {r : Result} (heol : p₀.uart.eol = false)
    (hlen : p₀.uart.rxBuf.length ≤ uartRxBufsz)
    (h : uartReadline env sync bufsz fuel p₀ = some r) : Ending env sync bufsz p₀ r :=
  readLoop_ending (mid_zero heol hlen) h

/-- Between two calls no line is pending. -/
structure Quiet (p : Port) : Prop where
  eol : p.uart.eol = false
  room : p.uart.rxBuf.length ≤ uartRxBufsz

lemma Ending.quiet {r : Result} (h : Ending env sync bufsz p₀ r) : Quiet r.port := by
  cases h with
  | line _ _ _ hu => exact ⟨by rw [hu], by rw [hu]; exact Nat.zero_le _⟩
  | timeout _ hopen _ _ _ hu => exact ⟨by rw [hu], by rw [hu]; exact hopen.2⟩
  | idle _ _ hopen _ _ hu => exact ⟨by rw [hu], by rw [hu]; exact hopen.2⟩

lemma Takes.feeds {m : ℕ} (h : Takes env sync p₀ taken m p) (hf : Feeds env p₀ c) :
    Feeds env p (c ++ taken) := by
  unfold Feeds at hf ⊢
  rw [h.now, received, collect_add, ← received, hf, List.append_assoc, List.append_assoc,
    ← h.bytes]
  rfl

lemma Open.part {u : Uart.State} (h : Open u taken) (hpart : Part u.uartEol u.rxBuf) :
    Part u.uartEol (u.rxBuf ++ taken) := by
  refine ⟨?_, h.2⟩
  rw [List.mem_append]
  rintro (hmem | hmem)
  · exact hpart.1 hmem
  · exact h.1 hmem

lemma Completes.isLine {u : Uart.State} {rx : List Byte} (h : Completes u taken rx)
    (hpart : Part u.uartEol u.rxBuf) : IsLine u.uartEol (u.rxBuf ++ taken) := by
  rcases h with ⟨t, rfl, hno, hle⟩ | ⟨hno, hlen, -⟩
  · refine .inl ⟨u.rxBuf ++ t, by rw [List.append_assoc], ?_, hle⟩
    exact (Open.part ⟨hno, by simp at hle ⊢; omega⟩ hpart).1
  · exact .inr ⟨hlen, (Open.part ⟨hno, hlen.le⟩ hpart).1⟩

/-- **What a call of `uart_readline` does**, whenever it returns: it completes a line and
returns its length and text, or it keeps what it has read for the next call. -/
theorem uartReadline_outcome {fuel : ℕ} {r : Result} (hb : Between p₀) (hf : Feeds env p₀ c)
    (h : uartReadline env sync bufsz fuel p₀ = some r) : Outcome env sync bufsz p₀ c r := by
  cases uartReadline_ending hb.eol hb.part.2 h with
  | line ht hline _ hu => exact .line (ht.feeds hf) (hline.isLine hb.part) hu
  | timeout ht hopen _ _ _ hu => exact .timeout (ht.feeds hf) (hopen.part hb.part) hu
  | idle hsync ht hopen hrx _ hu =>
    refine .idle hsync (ht.feeds hf) (hopen.part hb.part) hu fun ht0 => ?_
    have hbytes := ht.bytes
    rw [ht0, hrx] at hbytes
    exact hbytes

lemma Outcome.between {r : Result} (h : Outcome env sync bufsz p₀ c r) : Between r.port := by
  cases h with
  | line _ _ hu => exact ⟨by rw [hu], by rw [hu]; exact ⟨by simp, by simp⟩⟩
  | timeout _ hpart hu => exact ⟨by rw [hu], by rw [hu]; exact hpart⟩
  | idle _ _ hpart hu _ => exact ⟨by rw [hu], by rw [hu]; exact hpart⟩

/-! ### A call returns -/

/-- The rounds still to come, if a byte is found in each. -/
def roundsLeft (u : Uart.State) : ℕ := if u.eol then 1 else uartRxBufsz - u.rxBuf.length + 2

/-- Fuel for every call that does not wait. -/
def lineFuel : ℕ := uartRxBufsz + 2

/-- The timer is past `ticks` again and again. -/
def Expires (env : ℕ → Poll) (ticks : BitVec 32) : Prop := ∀ n, ∃ k, n ≤ k ∧ ticks < (env k).ticks

lemma roundsLeft_pos (u : Uart.State) : 0 < roundsLeft u := by
  unfold roundsLeft
  split <;> omega

section
variable {u : Uart.State}

lemma roundsLeft_of_full (heol : u.eol = false) :
    roundsLeft { u with eol := true } < roundsLeft u := by
  simp only [roundsLeft, heol, Bool.false_eq_true, if_false, if_true]
  omega

lemma roundsLeft_of_byte (heol : u.eol = false) (hroom : u.rxBuf.length < uartRxBufsz) (c : Byte)
    (eol : Bool) : roundsLeft { u with rxBuf := u.rxBuf ++ [c], eol := eol } < roundsLeft u := by
  simp only [roundsLeft, heol, Bool.false_eq_true, if_false, List.length_append,
    List.length_singleton]
  split_ifs <;> omega

end

lemma readRound_next {rc' : ℤ} {p' : Port} (hlen : p.uart.rxBuf.length ≤ uartRxBufsz)
    (hr : readRound env sync bufsz rc p = .inr (rc', p')) :
    p'.uart.rxBuf.length ≤ uartRxBufsz ∧ p'.uart.uartRxTimeout = p.uart.uartRxTimeout ∧
      (roundsLeft p'.uart < roundsLeft p.uart ∨
        (sync = true ∧ p' = p.status env ∧ ¬ p.uart.uartRxTimeout < (env p.now).ticks)) := by
  cases heol : p.uart.eol with
  | true => simp [readRound, heol] at hr
  | false =>
    cases hrx : (p.status env).rx with
    | nil =>
      rw [readRound_empty heol hrx] at hr
      split_ifs at hr with htime hsync
      cases hr
      exact ⟨hlen, rfl, .inr ⟨by simpa using hsync, rfl, htime⟩⟩
    | cons b rx =>
      by_cases hfull : p.uart.rxBuf.length = uartRxBufsz
      · rw [readRound_full heol hrx hfull] at hr
        cases hr
        exact ⟨hlen, rfl, .inl (roundsLeft_of_full heol)⟩
      · have hroom := lt_of_le_of_ne hlen hfull
        rw [readRound_byte heol hrx hfull] at hr
        cases hr
        exact ⟨by simpa using Nat.succ_le_of_lt hroom, rfl, .inl (roundsLeft_of_byte heol hroom _ _)⟩

lemma readLoop_isSome {k : ℕ} (hlen : p.uart.rxBuf.length ≤ uartRxBufsz)
    (hk : roundsLeft p.uart ≤ k) : (readLoop env false bufsz k rc p).isSome = true := by
  induction k generalizing rc p with
  | zero =>
    have := roundsLeft_pos p.uart
    omega
  | succ k ih =>
    simp only [readLoop]
    cases hr : readRound env false bufsz rc p with
    | inl r => rfl
    | inr q =>
      obtain ⟨hlen', -, hless | ⟨hsync, -⟩⟩ := readRound_next hlen hr
      · exact ih hlen' (by omega)
      · cases hsync

/-- **A call with `UART_FLAG_NONE` returns**, whatever arrives during it. -/
theorem uartReadline_isSome (h : Quiet p) :
    (uartReadline env false bufsz lineFuel p).isSome = true := by
  refine readLoop_isSome h.room ?_
  simp only [roundsLeft, h.eol, Bool.false_eq_true, if_false, lineFuel]
  omega

lemma exists_readLoop_of_next (h : ∀ rc' p', readRound env sync bufsz rc p = .inr (rc', p') →
    ∃ k, (readLoop env sync bufsz k rc' p').isSome = true) :
    ∃ k, (readLoop env sync bufsz k rc p).isSome = true := by
  cases hr : readRound env sync bufsz rc p with
  | inl r => exact ⟨1, by simp [readLoop, hr]⟩
  | inr q =>
    obtain ⟨k, hk⟩ := h q.1 q.2 hr
    exact ⟨k + 1, by simpa [readLoop, hr] using hk⟩

/-- The loop returns: each byte leaves fewer rounds, and between two bytes it waits no longer
than for the next read with an expired timeout. -/
lemma exists_readLoop {n : ℕ} (hlen : p.uart.rxBuf.length ≤ uartRxBufsz)
    (hexp : sync = true → Expires env p.uart.uartRxTimeout) (hn : roundsLeft p.uart ≤ n) :
    ∃ k, (readLoop env sync bufsz k rc p).isSome = true := by
  induction n generalizing rc p with
  | zero =>
    have := roundsLeft_pos p.uart
    omega
  | succ n ihn =>
    cases sync with
    | false => exact ⟨_, readLoop_isSome hlen hn⟩
    | true =>
      obtain ⟨k, hk, htick⟩ := hexp rfl p.now
      obtain ⟨d, rfl⟩ := Nat.exists_eq_add_of_le hk
      clear hk
      induction d generalizing rc p with
      | zero =>
        refine exists_readLoop_of_next fun rc' p' hr => ?_
        obtain ⟨hlen', htime, hless | ⟨-, -, hnot⟩⟩ := readRound_next hlen hr
        · exact ihn hlen' (htime ▸ hexp) (by omega)
        · exact absurd htick hnot
      | succ d ihd =>
        refine exists_readLoop_of_next fun rc' p' hr => ?_
        obtain ⟨hlen', htime, hless | ⟨-, rfl, -⟩⟩ := readRound_next hlen hr
        · exact ihn hlen' (htime ▸ hexp) (by omega)
        · refine ihd hlen' hn hexp ?_
          show _ < (env (p.now + 1 + d)).ticks
          rwa [Nat.add_assoc, Nat.add_comm 1 d]

/-- **Every call returns**, one that waits if the timer gets past the timeout again and again. -/
theorem exists_uartReadline (hlen : p.uart.rxBuf.length ≤ uartRxBufsz)
    (hexp : sync = true → Expires env p.uart.uartRxTimeout) :
    ∃ fuel, (uartReadline env sync bufsz fuel p).isSome = true :=
  exists_readLoop hlen hexp (Nat.le_refl _)

end Blastit.Fw.Line
