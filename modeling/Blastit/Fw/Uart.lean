import Blastit.Rtl.UartFrame
import Mathlib.Tactic.IntervalCases

/-!
`uart.c`: opening the port.

The C types are kept: `dword_t` arithmetic wraps at 32 bits, `word_t` truncates to 16, and
a division by zero is a fault. What the register writes of `uart1_init` mean to the
hardware is read off the concatenation in `blastit_main.v`.
-/

namespace Blastit.Fw.Uart

open Blastit.Rtl.UartFrame

/-- What goes wrong where C leaves the behaviour undefined. -/
inductive Fault
  | divideByZero
  | nullCursor
  | pastEnd
  | pidIndex
  | dataIndex
  | waiting
  deriving DecidableEq, Repr

/-! ### Errors and settings -/

def uartReady : ℤ := 0
def uartErrorRxBusy : ℤ := -2
def uartErrorTimeout : ℤ := -3
def uartErrorInvalidArg : ℤ := -6

/-- `uart_sbit`; `other` is any value that is none of the enumerators. -/
inductive UartSbit
  | half | one | two | other
  deriving DecidableEq, Repr

/-- `uart_dbit`, and `uart_parity` below: any value of the width of an enumeration can be
passed. -/
abbrev UartDbit := BitVec 32
def uartDbit7 : UartDbit := 7
def uartDbit8 : UartDbit := 8

abbrev UartParity := BitVec 32
def uartParityNone : UartParity := 0
def uartParityEven : UartParity := 1
def uartParityOdd : UartParity := 2

def clockSpeedHz : BitVec 32 := 50000000

/-- The arguments of a call of `uart1_init`. -/
structure Uart1Init where
  dbit : BitVec 8
  pbit : BitVec 8
  sbTick : BitVec 8
  osTick : BitVec 8
  dvsr : BitVec 16
  deriving DecidableEq, Repr

/-- The word `uart1_init` writes to `UART1_BAUD_CONTROL_BASE`. -/
def Uart1Init.baud (a : Uart1Init) : BitVec 32 :=
  ((a.dbit.setWidth 32 &&& 0xf) <<< 18) ||| ((a.pbit.setWidth 32 &&& 0x3) <<< 16) |||
    (a.sbTick.setWidth 32 <<< 8) ||| (a.osTick.setWidth 32 <<< 0)

/-- `{ uart1_dbit, uart1_pbit, uart1_sb_tick, uart1_os_tick }`. -/
def baudControl (w : BitVec 32) : Settings where
  dbit := w.extractLsb' 18 4
  pbit := w.extractLsb' 16 2
  sbTick := w.extractLsb' 8 8
  osTick := w.extractLsb' 0 8

/-- The settings the hardware runs with after `uart1_init`. -/
def Uart1Init.settings (a : Uart1Init) : Settings := baudControl a.baud

lemma Uart1Init.settings_eq (a : Uart1Init) :
    a.settings = ⟨a.dbit.setWidth 4, a.pbit.setWidth 2, a.sbTick, a.osTick⟩ := by
  obtain ⟨dbit, pbit, sbTick, osTick, dvsr⟩ := a
  simp only [settings, baudControl, baud, Settings.mk.injEq]
  refine ⟨?_, ?_, ?_, ?_⟩
  all_goals
    ext i hi
    interval_cases i <;> simp

/-! ### State -/

/-- The variables of `uart.c` that steer it; the first `uart_rx_bufsz` characters of
`uart_rx_buf` are `rxBuf`. `uart1` is the last call of `uart1_init`. -/
structure State where
  uartEol : BitVec 8
  uartRxTimeout : BitVec 32
  rxBuf : List (BitVec 8)
  eol : Bool
  uart1 : Option Uart1Init
  deriving DecidableEq, Repr

/-- The variables of `uart.c` at program start. -/
def initial : State := ⟨10, 30000, [], false, none⟩

/-- The stop bit in ticks; `none` is the `default` branch. -/
def UartSbit.sbTick (osTick : BitVec 8) : UartSbit → Option (BitVec 8)
  | .half => some (osTick / 2)
  | .one => some osTick
  | .two => some (2 * osTick)
  | .other => none

/-- `uart_open`: the return code and the state it leaves. The call of `uart1_init` takes the low
byte of `dbit` and `pbit`. -/
def uartOpen (s : State) (dbit : UartDbit) (sbit : UartSbit) (pbit : UartParity)
    (baud : BitVec 32) : Except Fault (ℤ × State) :=
  let osTick : BitVec 8 := 16
  match sbit.sbTick osTick with
  | none => .ok (uartErrorInvalidArg, s)
  | some sbTick =>
    if osTick.setWidth 32 * baud = 0 then .error .divideByZero
    else
      let dvsr := (clockSpeedHz / (osTick.setWidth 32 * baud)).setWidth 16
      if dbit = 0 then .ok (uartErrorInvalidArg, s)
      else
        .ok (uartReady,
          { s with
            rxBuf := []
            eol := false
            uart1 := some ⟨dbit.setWidth 8, pbit.setWidth 8, sbTick, osTick, dvsr⟩ })

lemma invalidArg_ne_ready {s s' : State} :
    (.ok (uartErrorInvalidArg, s) : Except Fault (ℤ × State)) ≠ .ok (uartReady, s') := by
  simp [uartErrorInvalidArg, uartReady]

lemma uartOpen_ok {s s' : State} {dbit : UartDbit} {pbit : UartParity} {sbit : UartSbit}
    {baud : BitVec 32}
    (h : uartOpen s dbit sbit pbit baud = .ok (uartReady, s')) :
    ∃ sbTick dvsr, sbit.sbTick 16 = some sbTick ∧
      s' = { s with
        rxBuf := []
        eol := false
        uart1 := some ⟨dbit.setWidth 8, pbit.setWidth 8, sbTick, 16, dvsr⟩ } := by
  unfold uartOpen at h
  cases hsb : sbit.sbTick 16 with
  | none =>
    simp only [hsb] at h
    exact (invalidArg_ne_ready h).elim
  | some sbTick =>
    simp only [hsb] at h
    split at h
    · cases h
    · split at h
      · exact (invalidArg_ne_ready h).elim
      · simp only [Except.ok.injEq, Prod.mk.injEq, true_and] at h
        exact ⟨sbTick, _, rfl, h.symm⟩

end Blastit.Fw.Uart
