import Blastit.Fw.Line
import Blastit.Lib.Pieces

/-!
Line assembly over any sequence of `uart_readline` calls.

The lines the calls return are the first pieces of the stream of received bytes, whatever
arrives before, between and during the calls; what has been read of the next piece waits
in the buffer.
-/

namespace Blastit.Fw.LineAssembly

open Blastit.Lib.Text Blastit.Lib.Clocked Blastit.Lib.Pieces Blastit.Fw.Uart Blastit.Fw.Line

/-- A call of `uart_readline`, with the receive timeout it is made under. -/
structure Call where
  sync : Bool
  bufsz : ℕ
  bufsz_pos : 1 ≤ bufsz
  uartRxTimeout : BitVec 32
  fuel : ℕ

/-- A call that has returned, and the port it was made on. -/
structure Turn where
  call : Call
  before : Port
  result : Result

/-- The port with another receive timeout. -/
def withTimeout (p : Port) (ticks : BitVec 32) : Port :=
  { p with uart := { p.uart with uartRxTimeout := ticks } }

/-- The calls one after the other, and the port they leave. -/
def readlines (env : ℕ → Poll) : List Call → Port → Option (List Turn × Port)
  | [], p => some ([], p)
  | k :: ks, p => do
    let p := withTimeout p k.uartRxTimeout
    let r ← uartReadline env k.sync k.bufsz k.fuel p
    let (ts, p') ← readlines env ks r.port
    return (⟨k, p, r⟩ :: ts, p')

namespace Turn

variable (t : Turn)

def isLine : Bool := 0 < t.result.rc

/-- It returns the line `l`: its length, as much of its text as fits, and an empty buffer. -/
structure Returns (l : List Byte) : Prop where
  rc : t.result.rc = l.length
  str : t.result.str = some (l.take (t.call.bufsz - 1) ++
    List.replicate (t.call.bufsz - (l.take (t.call.bufsz - 1)).length) 0)
  empty : t.result.port.uart.rxBuf = []

/-- It keeps what it has read, and writes nothing. -/
structure Keeps (env : ℕ → Poll) : Prop where
  str : t.result.str = none
  bytes : t.result.port.uart.rxBuf ++ t.result.port.rx =
    t.before.uart.rxBuf ++ t.before.available env (t.result.port.now - t.before.now)

end Turn

/-- What the turns leave when the stream is cut at `eol`. -/
structure Assembled (env : ℕ → Poll) (eol : Byte) (ts : List Turn) (p : Port) : Prop where
  lines : ∃ ls, List.Forall₂ Turn.Returns (ts.filter Turn.isLine) ls ∧
    (∀ t, p.now ≤ t → ls <+: pieces eol uartRxBufsz (received env t)) ∧
    ls.flatten ++ p.uart.rxBuf ++ p.rx = received env p.now
  others : ∀ t ∈ ts, ¬ t.isLine → t.Keeps env

variable {env : ℕ → Poll} {eol : Byte} {p p' : Port} {ls : List (List Byte)} {sync : Bool}
  {bufsz m : ℕ} {taken : List Byte} {r : Result}

/-- Between two calls: the lines returned are cut off the stream, and the buffer holds the
beginning of the next. -/
structure Cutting (env : ℕ → Poll) (eol : Byte) (ls : List (List Byte)) (p : Port) : Prop where
  sep : p.uart.uartEol = eol
  flag : p.uart.eol = false
  begun : Begun eol uartRxBufsz p.uart.rxBuf
  cuts : Cuts eol uartRxBufsz ls (received env p.now) (p.uart.rxBuf ++ p.rx)

lemma Cutting.withTimeout (h : Cutting env eol ls p) (ticks : BitVec 32) :
    Cutting env eol ls (withTimeout p ticks) :=
  ⟨h.sep, h.flag, h.begun, h.cuts⟩

lemma Cutting.cuts_takes (h : Cutting env eol ls p) (ht : Takes env sync p taken m p') :
    Cuts eol uartRxBufsz ls (received env p'.now) (p.uart.rxBuf ++ taken ++ p'.rx) := by
  have hcuts := h.cuts.extend (collect (fun k => (env (p.now + k)).arrived) m)
  rw [← collect_add, ← ht.now, List.append_assoc] at hcuts
  rw [List.append_assoc, ← ht.bytes]
  exact hcuts

lemma Cutting.begun_open (h : Cutting env eol ls p) (hopen : Open p.uart taken) :
    Begun eol uartRxBufsz (p.uart.rxBuf ++ taken) := by
  have hpart := hopen.part (h.sep ▸ h.begun)
  rw [h.sep] at hpart
  exact hpart

lemma copyLine_eq {l : List Byte} (h : (0 : Byte) ∉ l) :
    copyLine bufsz l = l.take (bufsz - 1) ++
      List.replicate (bufsz - (l.take (bufsz - 1)).length) 0 := by
  have hno : ∀ n, (0 : Byte) ∉ l.take n := fun n hmem => h (List.mem_of_mem_take hmem)
  unfold copyLine
  dsimp only
  split
  · rw [cstr_eq_self (hno _)]
  · rw [cstr_eq_self (hno _), List.take_of_length_le (Nat.le_refl _),
      List.take_of_length_le (show l.length ≤ bufsz - 1 by omega)]

/-- **One call**: it returns the next piece of the stream, or keeps what it has read. -/
lemma Cutting.call (h : Cutting env eol ls p) (hnul : ∀ t, (0 : Byte) ∉ received env t) {k : Call}
    (hr : uartReadline env k.sync k.bufsz k.fuel p = some r) :
    (0 < r.rc ∧ ∃ l, (⟨k, p, r⟩ : Turn).Returns l ∧ Cutting env eol (ls ++ [l]) r.port) ∨
      (¬ 0 < r.rc ∧ (⟨k, p, r⟩ : Turn).Keeps env ∧ Cutting env eol ls r.port) := by
  cases uartReadline_ending h.flag h.begun.2 hr with
  | @line taken m p' ht hline _ hu =>
    have hcuts := h.cuts_takes ht
    have hpiece : Piece eol uartRxBufsz (p.uart.rxBuf ++ taken) p'.rx := by
      rcases hline.isLine (h.sep ▸ h.begun) with ⟨t, hl, hno, hle⟩ | ⟨hlen, hno⟩
      · rw [h.sep] at hl hno
        exact .inl ⟨t, hl, hno, hle⟩
      · rw [h.sep] at hno
        rcases hline with ⟨t, hl, -, -⟩ | ⟨-, -, hrx⟩
        · rw [hl, h.sep] at hno
          simp at hno
        · exact .inr ⟨⟨hno, hlen⟩, hrx⟩
    have hfree : (0 : Byte) ∉ p.uart.rxBuf ++ taken := by
      intro hmem
      refine hnul p'.now ?_
      rw [← hcuts.flatten]
      exact List.mem_append_right _ (List.mem_append_left _ hmem)
    refine .inl ⟨Int.natCast_pos.mpr hline.length_pos, _, ⟨rfl, ?_, by simp [hu]⟩, ?_⟩
    · rw [copyLine_eq hfree]
    · refine ⟨by simp [hu, h.sep], by simp [hu], by simp [hu, Begun], ?_⟩
      have := hcuts.snoc hpiece
      simpa [hu] using this
  | timeout ht hopen hrx htime hreads hu =>
    refine .inr ⟨by simp [uartErrorTimeout], ⟨rfl, ?_⟩, ?_⟩
    · simp only [hu, ht.now, Nat.add_sub_cancel_left, ht.bytes, List.append_assoc]
    · refine ⟨by simp [hu, h.sep], by simp [hu], by simpa [hu] using h.begun_open hopen, ?_⟩
      simpa [hu] using h.cuts_takes ht
  | idle hsync ht hopen hrx htime hu =>
    refine .inr ⟨?_, ⟨rfl, ?_⟩, ?_⟩
    · split <;> simp [uartReady, uartErrorRxBusy]
    · simp only [hu, ht.now, Nat.add_sub_cancel_left, ht.bytes, List.append_assoc]
    · refine ⟨by simp [hu, h.sep], by simp [hu], by simpa [hu] using h.begun_open hopen, ?_⟩
      simpa [hu] using h.cuts_takes ht

/-- **Any sequence of calls.** -/
lemma Cutting.run (hnul : ∀ t, (0 : Byte) ∉ received env t) {ks : List Call} {ts : List Turn}
    (h : Cutting env eol ls p) (hr : readlines env ks p = some (ts, p')) :
    ∃ ls', List.Forall₂ Turn.Returns (ts.filter Turn.isLine) ls' ∧
      Cutting env eol (ls ++ ls') p' ∧ ∀ t ∈ ts, ¬ t.isLine → t.Keeps env := by
  induction ks generalizing ls p ts with
  | nil =>
    cases hr
    exact ⟨[], .nil, by rwa [List.append_nil], by simp⟩
  | cons k ks ih =>
    simp only [readlines, Option.bind_eq_bind, Option.bind_eq_some_iff] at hr
    obtain ⟨r, hcall, ⟨ts', p₁⟩, hrest, hts⟩ := hr
    cases hts
    rcases (h.withTimeout k.uartRxTimeout).call hnul hcall with
      ⟨hpos, l, hret, hcut⟩ | ⟨hnot, hkeep, hcut⟩
    · obtain ⟨ls', hall, hend, hothers⟩ := ih hcut hrest
      rw [List.append_assoc] at hend
      refine ⟨l :: ls', ?_, hend, fun t ht hline => ?_⟩
      · rw [List.filter_cons_of_pos (by simpa [Turn.isLine] using hpos)]
        exact .cons hret hall
      · rcases List.mem_cons.mp ht with rfl | hmem
        · exact absurd (by simpa [Turn.isLine] using hpos) hline
        · exact hothers t hmem hline
    · obtain ⟨ls', hall, hend, hothers⟩ := ih hcut hrest
      refine ⟨ls', ?_, hend, fun t ht hline => ?_⟩
      · rwa [List.filter_cons_of_neg (by simpa [Turn.isLine] using hnot)]
      · rcases List.mem_cons.mp ht with rfl | hmem
        · exact hkeep
        · exact hothers t hmem hline

lemma cutting_opened {u : Uart.State} {dbit : UartDbit} {pbit : UartParity} {sbit : UartSbit}
    {baud : BitVec 32}
    (hopen : uartOpen u dbit sbit pbit baud = .ok (uartReady, p.uart))
    (hrx : p.rx = received env p.now) : Cutting env p.uart.uartEol [] p := by
  obtain ⟨sbTick, dvsr, -, hu⟩ := uartOpen_ok hopen
  refine ⟨rfl, by simp [hu], by simp [hu, Begun], ?_⟩
  rw [hu, hrx]
  exact .nil

/-- **Line assembly is independent of arrival timing**: after `uart_open`, the lines that
any sequence of calls returns are the first pieces of the stream of received bytes, and the
other calls keep what they read. -/
theorem assembled_of_open {u : Uart.State} {dbit : UartDbit} {pbit : UartParity} {sbit : UartSbit}
    {baud : BitVec 32} {ks : List Call} {ts : List Turn}
    (hopen : uartOpen u dbit sbit pbit baud = .ok (uartReady, p.uart))
    (hrx : p.rx = received env p.now) (hnul : ∀ t, (0 : Byte) ∉ received env t)
    (hr : readlines env ks p = some (ts, p')) : Assembled env p.uart.uartEol ts p' := by
  obtain ⟨ls, hall, hcut, hothers⟩ := (cutting_opened hopen hrx).run hnul hr
  rw [List.nil_append] at hcut
  refine ⟨⟨ls, hall, fun t ht => ?_, ?_⟩, hothers⟩
  · obtain ⟨more, hmore⟩ := collect_initial (fun k => (env k).arrived) ht
    have := (hcut.cuts.extend more).initial_pieces (show 0 < uartRxBufsz by decide)
    rwa [hmore] at this
  · rw [List.append_assoc]
    exact hcut.cuts.flatten

/-- A character, a pause, and the end of the line. -/
def pausing (k : ℕ) : Poll :=
  ⟨if k = 0 then [0x41] else if k = 2 then [0x3e] else [], 0⟩

lemma pausing_noNul (t : ℕ) : (0 : Byte) ∉ received pausing t := by
  induction t with
  | zero => simp
  | succ t ih =>
    rw [received, collect_succ, List.mem_append]
    rintro (hmem | hmem)
    · exact ih hmem
    · simp only [pausing] at hmem
      split_ifs at hmem <;> simp at hmem

/-- The line is returned by the second call, though `str` takes one character of it. -/
theorem assembled_pausing :
    ∃ ts p', readlines pausing
        [⟨false, 8, by decide, 30000, lineFuel⟩, ⟨true, 2, by decide, 30000, lineFuel⟩]
        ⟨⟨0x3e, 30000, [], false, some ⟨8, 0, 16, 16, 27⟩⟩, [], 0⟩ = some (ts, p') ∧
      ts.map (fun t => (t.result.rc, t.result.str)) = [(-2, none), (2, some [0x41, 0])] ∧
      Assembled pausing 0x3e ts p' := by
  have hopen : uartOpen { Uart.initial with uartEol := 0x3e } uartDbit8 .one uartParityNone 115200 =
      .ok (uartReady, ⟨0x3e, 30000, [], false, some ⟨8, 0, 16, 16, 27⟩⟩) := rfl
  have hrun : (readlines pausing
        [⟨false, 8, by decide, 30000, lineFuel⟩, ⟨true, 2, by decide, 30000, lineFuel⟩]
        ⟨⟨0x3e, 30000, [], false, some ⟨8, 0, 16, 16, 27⟩⟩, [], 0⟩).map
      (fun r => r.1.map fun t => (t.result.rc, t.result.str)) =
        some [(-2, none), (2, some [0x41, 0])] := by rfl
  obtain ⟨⟨ts, p'⟩, hr, hts⟩ := Option.map_eq_some_iff.mp hrun
  exact ⟨ts, p', hr, hts, assembled_of_open hopen rfl pausing_noNul hr⟩

end Blastit.Fw.LineAssembly
