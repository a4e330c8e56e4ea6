import Blastit.Fw.Line

/-!
What the return code of `uart_readline` says about the call.

A call that does not wait and finds the receiver empty at once returns the code it started
with, which is that of a line of no characters.
-/

namespace Blastit.Fw.LineReports

open Blastit.Lib.Text Blastit.Fw.Uart Blastit.Fw.Line

/-- The ports of a program that opens the port, calls `uart_readline` and sets `uart_eol` and
`uart_rx_timeout` in any order. -/
inductive Reachable (env : ℕ → Poll) : Port → Prop
  | start {rx : List Byte} {now : ℕ} : Reachable env ⟨Uart.initial, rx, now⟩
  | opened {p : Port} {dbit : UartDbit} {pbit : UartParity} {sbit : UartSbit}
    {baud : BitVec 32} {rc : ℤ} {u : Uart.State} {rx : List Byte} (hp : Reachable env p)
    (h : uartOpen p.uart dbit sbit pbit baud = .ok (rc, u)) : Reachable env ⟨u, rx, p.now⟩
  | called {p : Port} {sync : Bool} {bufsz fuel : ℕ} {r : Result} (hp : Reachable env p)
    (h : uartReadline env sync bufsz fuel p = some r) : Reachable env r.port
  | assigned {p : Port} (uartEol : BitVec 8) (uartRxTimeout : BitVec 32)
    (hp : Reachable env p) : Reachable env
      { p with uart := { p.uart with uartEol := uartEol, uartRxTimeout := uartRxTimeout } }

/-- In the call a line was completed, `uart_eol` having been received or the buffer being
full with more data available, and its text was stored in `str`. -/
def LineStored (env : ℕ → Poll) (bufsz : ℕ) (p : Port) (r : Result) : Prop :=
  ∃ taken, p.available env (r.port.now - p.now) = taken ++ r.port.rx ∧
    (p.uart.uartEol ∈ taken ∨
      (p.uart.rxBuf ++ taken).length = uartRxBufsz ∧ r.port.rx ≠ []) ∧
    r.str = some (copyLine bufsz (p.uart.rxBuf ++ taken))

/-- The return code reports a line exactly where there is one, and otherwise says whether the
timeout had expired when the receiver was last found empty. -/
structure Reports (env : ℕ → Poll) (bufsz : ℕ) (p : Port) (r : Result) : Prop where
  line : 0 ≤ r.rc ↔ LineStored env bufsz p r
  other : ¬ LineStored env bufsz p r → r.rc =
    if p.uart.uartRxTimeout < (env (r.port.now - 1)).ticks then uartErrorTimeout
    else uartErrorRxBusy

/-- The call waits, or its first status read finds a byte or an expired timeout. -/
def Due (env : ℕ → Poll) (sync : Bool) (p : Port) : Prop :=
  sync = true ∨ (p.status env).rx ≠ [] ∨ p.uart.uartRxTimeout < (env p.now).ticks

variable {env : ℕ → Poll} {sync : Bool} {bufsz : ℕ} {p : Port} {r : Result}

lemma Reachable.quiet (h : Reachable env p) : Quiet p := by
  induction h with
  | start => exact ⟨rfl, Nat.zero_le _⟩
  | opened _ h ih =>
    simp only [uartOpen] at h
    split at h
    · cases h
      exact ⟨ih.eol, ih.room⟩
    · split_ifs at h
      · cases h
        exact ⟨ih.eol, ih.room⟩
      · cases h
        exact ⟨rfl, Nat.zero_le _⟩
  | called _ h ih => exact (uartReadline_ending ih.eol ih.room h).quiet
  | assigned _ _ _ ih => exact ⟨ih.eol, ih.room⟩

/-! ### What a call reports -/

lemma lineStored_of_completes {taken : List Byte} {m : ℕ} {p' : Port}
    (ht : Takes env sync p taken m p') (hline : Completes p.uart taken p'.rx) :
    LineStored env bufsz p
      ⟨(p.uart.rxBuf ++ taken).length, some (copyLine bufsz (p.uart.rxBuf ++ taken)), p'⟩ := by
  refine ⟨taken, ?_, ?_, rfl⟩
  · rw [ht.now, Nat.add_sub_cancel_left]
    exact ht.bytes
  · rcases hline with ⟨t, htaken, -, -⟩ | ⟨-, hlen, hrx⟩
    · exact .inl (by rw [htaken]; simp)
    · exact .inr ⟨hlen, hrx⟩

lemma not_lineStored {rc : ℤ} {p' : Port} : ¬ LineStored env bufsz p ⟨rc, none, p'⟩ := by
  rintro ⟨_, _, _, hstr⟩
  cases hstr

/-- A code below zero that tells the timeout from the rest is all a call without a line can
report. -/
lemma reports_none_iff {rc : ℤ} {p' : Port} :
    Reports env bufsz p ⟨rc, none, p'⟩ ↔
      rc = if p.uart.uartRxTimeout < (env (p'.now - 1)).ticks then uartErrorTimeout
        else uartErrorRxBusy := by
  constructor
  · exact fun h => h.other not_lineStored
  · intro hrc
    refine ⟨⟨fun hpos => ?_, fun h => absurd h not_lineStored⟩, fun _ => hrc⟩
    change 0 ≤ rc at hpos
    rw [hrc] at hpos
    split at hpos <;> exact absurd hpos (by decide)

lemma reports_of_ending (h : Ending env sync bufsz p r) (hdue : Due env sync p) :
    Reports env bufsz p r := by
  cases h with
  | line ht hline _ hu =>
    have hstored : LineStored env bufsz p _ := lineStored_of_completes ht hline
    exact ⟨⟨fun _ => hstored, fun _ => Int.natCast_nonneg _⟩, fun hno => absurd hstored hno⟩
  | timeout ht _ _ htime _ _ =>
    rw [reports_none_iff, ht.now, ← Nat.add_assoc, Nat.add_sub_cancel, if_pos htime]
  | idle hsync ht _ hrx htime _ =>
    rw [reports_none_iff, ht.now, ← Nat.add_assoc, Nat.add_sub_cancel, if_neg htime, if_neg]
    rintro rfl
    rcases hdue with hs | hbyte | hexpired
    · rw [hsync] at hs
      cases hs
    · have hbytes := ht.bytes
      rw [hrx] at hbytes
      exact hbyte hbytes
    · exact htime hexpired

lemma uartReadline_idle {fuel : ℕ} (heol : p.uart.eol = false) (hdue : ¬ Due env sync p) :
    uartReadline env sync bufsz (fuel + 1) p = some ⟨uartReady, none, p.status env⟩ := by
  simp only [Due, not_or, ne_eq, not_not] at hdue
  obtain ⟨hsync, hrx, htime⟩ := hdue
  simp only [uartReadline, readLoop, readRound_empty heol hrx, if_neg htime,
    if_pos (Bool.eq_false_iff.mpr hsync)]
  rfl

lemma not_reports_idle {p' : Port} : ¬ Reports env bufsz p ⟨uartReady, none, p'⟩ := by
  rw [reports_none_iff]
  split <;> decide

/-- **`uart_readline` returns, and its code reports what happened exactly where the call waits
or its first status read finds a byte or an expired timeout.** -/
theorem code_reports_iff (hp : Reachable env p) :
    ((sync = true → Expires env p.uart.uartRxTimeout) →
      ∃ fuel, (uartReadline env sync bufsz fuel p).isSome = true) ∧
    ((∀ fuel r, uartReadline env sync bufsz fuel p = some r → Reports env bufsz p r) ↔
      Due env sync p) := by
  have hquiet := hp.quiet
  refine ⟨exists_uartReadline hquiet.room, fun h => ?_, fun hdue fuel r hr => ?_⟩
  · by_contra hdue
    exact not_reports_idle (h 1 _ (uartReadline_idle hquiet.eol hdue))
  · exact reports_of_ending (uartReadline_ending hquiet.eol hquiet.room hr) hdue

def silent (_ : ℕ) : Poll := ⟨[], 0⟩

/-- A byte that does not end the line: the call reports that the receiver is busy. -/
theorem reports_one_byte :
    Reports silent 8 ⟨Uart.initial, [0x41], 0⟩
      ⟨uartErrorRxBusy, none, ⟨⟨10, 30000, [0x41], false, none⟩, [], 2⟩⟩ := by
  have hall : (∀ fuel r, uartReadline silent false 8 fuel ⟨Uart.initial, [0x41], 0⟩ = some r →
      Reports silent 8 ⟨Uart.initial, [0x41], 0⟩ r) ↔ Due silent false _ :=
    (code_reports_iff .start).2
  exact hall.mpr (.inr (.inl (by decide))) 3 _ (by rfl)

/-- Nothing has arrived, and the call returns the code of a line. -/
theorem not_reports_nothing :
    Reachable silent ⟨Uart.initial, [], 0⟩ ∧
      uartReadline silent false 8 lineFuel ⟨Uart.initial, [], 0⟩ =
        some ⟨0, none, ⟨Uart.initial, [], 1⟩⟩ ∧
      ¬ Reports silent 8 ⟨Uart.initial, [], 0⟩ ⟨0, none, ⟨Uart.initial, [], 1⟩⟩ :=
  ⟨.start, by rfl, not_reports_idle⟩

end Blastit.Fw.LineReports
