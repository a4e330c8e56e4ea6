import Blastit.Rtl.Uart

/-!
`uart1_rx` and `uart1_tx`: calls that raise a bit of the control register and take it back.

The processor keeps a bit for as long as it takes from one write to the next; the buffers see
the ticks of the edge triggers.
-/

namespace Blastit.Fw.UartCalls

open Blastit.Lib.Clocked Blastit.Lib.Ring Blastit.Lib.Runs Blastit.Lib.Ticks Blastit.Rtl
  Blastit.Rtl.UartFrame

/-! ### The calls -/

structure Regs where
  uart1WrControl : BitVec 2
  uart1WData : BitVec 8
  deriving DecidableEq

def uart1WrControlWr : BitVec 32 := 1 <<< 0
def uart1WrControlRd : BitVec 32 := 1 <<< 1

/-- `{ uart1_rd_uart, uart1_wr_uart }`. -/
def Regs.rdUart (r : Regs) : Bool := r.uart1WrControl.getLsbD 1

def Regs.wrUart (r : Regs) : Bool := r.uart1WrControl.getLsbD 0

/-- A write to `UART1_WR_CONTROL_BASE`. -/
def Regs.writeControl (r : Regs) (w : BitVec 32) : Regs := { r with uart1WrControl := w.setWidth 2 }

inductive Call
  | uart1Rx
  | uart1Tx (data : BitVec 8)
  deriving DecidableEq

/-- What the registers hold one after the other: first while the call polls the status and, in
`uart1_rx`, reads the word. -/
def Call.contents (call : Call) (r : Regs) : List Regs :=
  match call with
  | .uart1Rx => [r, r.writeControl uart1WrControlRd, r.writeControl 0]
  | .uart1Tx data =>
    let loaded := { r with uart1WData := data }
    [r, loaded, loaded.writeControl uart1WrControlWr, loaded.writeControl 0]

/-- Values held one after the other, each for a number of clocks and one; the last one stays. -/
def held {α : Type*} (last : α) : List (α × ℕ) → ℕ → α
  | [], _ => last
  | (x, d) :: l, t => if t ≤ d then x else held last l (t - (d + 1))

/-- The clocks they are held for. -/
def span {α : Type*} : List (α × ℕ) → ℕ
  | [] => 0
  | (_, d) :: l => d + 1 + span l

/-- A call that returns, the clocks each content of the registers is held for, and the line
meanwhile. -/
structure Episode where
  call : Call
  dwell : ℕ → ℕ
  rx : ℕ → Bool

namespace Episode

variable (e : Episode) (r : Regs)

def contents : List (Regs × ℕ) := (e.call.contents r).zipIdx.map fun p => (p.1, e.dwell p.2)

/-- The registers after the call. -/
def after : Regs := (e.call.contents r).getLastD r

/-- The registers at each clock of the call. -/
def regsAt (t : ℕ) : Regs := held (e.after r) (e.contents r) t

def clocks : ℕ := span (e.contents r)

def inp (t : ℕ) : Rtl.Uart.In :=
  ⟨(e.regsAt r t).rdUart, (e.regsAt r t).wrUart, e.rx t, (e.regsAt r t).uart1WData⟩

end Episode

/-! ### The machine -/

/-- The port and the registers before it. -/
structure Machine (R W D : ℕ) where
  uart : Rtl.Uart.State R W D
  regs : Regs

section
variable {R W D : ℕ} (c : Settings) (dvsr : BitVec D) (m : Machine R W D) (e : Episode)

/-- The port at each clock of a call. -/
def uartAt (t : ℕ) : Rtl.Uart.State R W D := exec (Rtl.Uart.next c dvsr) m.uart (e.inp m.regs) t

def run : Machine R W D := ⟨uartAt c dvsr m e (e.clocks m.regs), e.after m.regs⟩

/-- What the buffers do at each clock of a call. -/
def rxIn (t : ℕ) : Fifo.In 8 :=
  ⟨Rtl.Uart.rdUartTick (uartAt c dvsr m e t) (e.inp m.regs t),
    Rtl.Uart.rxDoneTick c (uartAt c dvsr m e t) (e.inp m.regs t),
    Rtl.Uart.rxDataOut c (uartAt c dvsr m e t)⟩

def txIn (t : ℕ) : Fifo.In 8 :=
  ⟨Rtl.Uart.txDoneTick c (uartAt c dvsr m e t),
    Rtl.Uart.wrUartTick (uartAt c dvsr m e t) (e.inp m.regs t), (e.inp m.regs t).wData⟩

/-- The words the receive buffer hands out in a call. -/
def popped : List (BitVec 8) :=
  collect (fun t => if (rxIn c dvsr m e t).rd then [Rtl.Uart.rData (uartAt c dvsr m e t)] else [])
    (e.clocks m.regs)

/-- The words the transmit buffer takes in a call. -/
def pushed : List (BitVec 8) :=
  collect (fun t => if (txIn c dvsr m e t).wr then [(txIn c dvsr m e t).wData] else [])
    (e.clocks m.regs)

/-- After reset, before the first call. -/
def start (φ : ModMCounter.State D) (s₀ : Rtl.Uart.State R W D) (wData : BitVec 8) :
    Machine R W D :=
  ⟨Rtl.Uart.start φ s₀, ⟨0, wData⟩⟩

end

/-! ### Between calls -/

/-- Both triggers wait and no bit of the control register is set. -/
structure Quiet {R W D : ℕ} (m : Machine R W D) : Prop where
  rxTrigger : m.uart.uartRxTrigger = EdgeTrigger.reset
  txTrigger : m.uart.uartTxTrigger = EdgeTrigger.reset
  control : m.regs.uart1WrControl = 0

variable {R W D : ℕ} {c : Settings} {dvsr : BitVec D} {m : Machine R W D} {e : Episode} {t : ℕ}

lemma quiet_start (φ : ModMCounter.State D) (s₀ : Rtl.Uart.State R W D) (wData : BitVec 8) :
    Quiet (start φ s₀ wData) := ⟨rfl, rfl, rfl⟩

lemma rxTrigger_uartAt (h : Quiet m) (t : ℕ) : (uartAt c dvsr m e t).uartRxTrigger =
    exec (EdgeTrigger.next true) EdgeTrigger.reset (fun u => (e.inp m.regs u).rdUart) t := by
  rw [← h.rxTrigger]
  exact exec_part (fun _ => rfl) t

lemma txTrigger_uartAt (h : Quiet m) (t : ℕ) : (uartAt c dvsr m e t).uartTxTrigger =
    exec (EdgeTrigger.next true) EdgeTrigger.reset (fun u => (e.inp m.regs u).wrUart) t := by
  rw [← h.txTrigger]
  exact exec_part (fun _ => rfl) t

lemma rd_rxIn (h : Quiet m) (t : ℕ) :
    (rxIn c dvsr m e t).rd = EdgeTrigger.pulse (fun u => (e.inp m.regs u).rdUart) t := by
  rw [rxIn, Rtl.Uart.rdUartTick, rxTrigger_uartAt h]
  exact EdgeTrigger.tick_exec _ t

lemma wr_txIn (h : Quiet m) (t : ℕ) :
    (txIn c dvsr m e t).wr = EdgeTrigger.pulse (fun u => (e.inp m.regs u).wrUart) t := by
  rw [txIn, Rtl.Uart.wrUartTick, txTrigger_uartAt h]
  exact EdgeTrigger.tick_exec _ t

/-! ### The bits -/

section
variable {r : Regs} {data : BitVec 8}

lemma rdUart_writeControl (r : Regs) (w : BitVec 32) :
    (r.writeControl w).rdUart = w.getLsbD 1 := by
  simp [Regs.writeControl, Regs.rdUart]

lemma wrUart_writeControl (r : Regs) (w : BitVec 32) :
    (r.writeControl w).wrUart = w.getLsbD 0 := by
  simp [Regs.writeControl, Regs.wrUart]

lemma bits_of_control_zero (hr : r.uart1WrControl = 0) : r.rdUart = false ∧ r.wrUart = false := by
  simp [Regs.rdUart, Regs.wrUart, hr]

lemma regsAt_uart1Rx (hcall : e.call = .uart1Rx) (t : ℕ) :
    e.regsAt r t = if t ≤ e.dwell 0 then r
      else if t ≤ e.dwell 0 + 1 + e.dwell 1 then r.writeControl uart1WrControlRd
      else r.writeControl 0 := by
  simp only [Episode.regsAt, Episode.contents, Episode.after, hcall, Call.contents, List.zipIdx,
    List.map, List.getLastD, List.getLast, held]
  grind

lemma regsAt_uart1Tx (hcall : e.call = .uart1Tx data) (t : ℕ) :
    e.regsAt r t = if t ≤ e.dwell 0 then r
      else if t ≤ e.dwell 0 + 1 + e.dwell 1 then { r with uart1WData := data }
      else if t ≤ e.dwell 0 + 1 + e.dwell 1 + 1 + e.dwell 2 then
        { r with uart1WData := data }.writeControl uart1WrControlWr
      else { r with uart1WData := data }.writeControl 0 := by
  simp only [Episode.regsAt, Episode.contents, Episode.after, hcall, Call.contents, List.zipIdx,
    List.map, List.getLastD, List.getLast, held]
  grind

lemma inp_uart1Rx (hr : r.uart1WrControl = 0) (hcall : e.call = .uart1Rx) (t : ℕ) :
    (e.inp r t).rdUart = decide (e.dwell 0 + 1 ≤ t ∧ t < e.dwell 0 + 1 + (e.dwell 1 + 1)) ∧
      (e.inp r t).wrUart = false := by
  obtain ⟨hrd, hwr⟩ := bits_of_control_zero hr
  simp only [Episode.inp, regsAt_uart1Rx hcall]
  split_ifs with h0 h1
  · rw [decide_eq_false (by omega)]
    exact ⟨hrd, hwr⟩
  · rw [decide_eq_true (by omega)]
    exact ⟨rdUart_writeControl _ _, wrUart_writeControl _ _⟩
  · rw [decide_eq_false (by omega)]
    exact ⟨rdUart_writeControl _ _, wrUart_writeControl _ _⟩

lemma inp_uart1Tx (hr : r.uart1WrControl = 0) (hcall : e.call = .uart1Tx data) (t : ℕ) :
    (e.inp r t).rdUart = false ∧
      (e.inp r t).wrUart = decide (e.dwell 0 + 1 + (e.dwell 1 + 1) ≤ t ∧
        t < e.dwell 0 + 1 + (e.dwell 1 + 1) + (e.dwell 2 + 1)) ∧
      (e.dwell 0 < t → (e.inp r t).wData = data) := by
  obtain ⟨hrd, hwr⟩ := bits_of_control_zero hr
  simp only [Episode.inp, regsAt_uart1Tx hcall]
  split_ifs with h0 h1 h2
  · rw [decide_eq_false (by omega)]
    exact ⟨hrd, hwr, fun h => by omega⟩
  · rw [decide_eq_false (by omega)]
    exact ⟨hrd, hwr, fun _ => rfl⟩
  · rw [decide_eq_true (by omega)]
    exact ⟨rdUart_writeControl _ _, wrUart_writeControl _ _, fun _ => rfl⟩
  · rw [decide_eq_false (by omega)]
    exact ⟨rdUart_writeControl _ _, wrUart_writeControl _ _, fun _ => rfl⟩

lemma clocks_uart1Rx (hcall : e.call = .uart1Rx) :
    e.clocks r = e.dwell 0 + 1 + (e.dwell 1 + 1) + (e.dwell 2 + 1) := by
  simp only [Episode.clocks, Episode.contents, hcall, Call.contents, List.zipIdx, List.map, span,
    Nat.zero_add, Nat.reduceAdd]
  omega

lemma clocks_uart1Tx (hcall : e.call = .uart1Tx data) :
    e.clocks r = e.dwell 0 + 1 + (e.dwell 1 + 1) + (e.dwell 2 + 1) + (e.dwell 3 + 1) := by
  simp only [Episode.clocks, Episode.contents, hcall, Call.contents, List.zipIdx, List.map, span,
    Nat.zero_add, Nat.reduceAdd]
  omega

/-- **Calls leave the port as they found it**: no bit set, both triggers waiting. -/
lemma Quiet.run (h : Quiet m) : Quiet (run c dvsr m e) := by
  cases hcall : e.call with
  | uart1Rx =>
    have hbits := inp_uart1Rx h.control hcall
    have hlen := clocks_uart1Rx (r := m.regs) hcall
    refine ⟨?_, ?_, ?_⟩
    · refine (rxTrigger_uartAt h _).trans (EdgeTrigger.exec_low (by omega) ?_)
      rw [(hbits _).1, decide_eq_false_iff_not]
      omega
    · exact (txTrigger_uartAt h _).trans (EdgeTrigger.exec_low (by omega) (hbits _).2)
    · simp only [UartCalls.run, Episode.after, hcall, Call.contents]
      rfl
  | uart1Tx data =>
    have hbits := inp_uart1Tx h.control hcall
    have hlen := clocks_uart1Tx (r := m.regs) hcall
    refine ⟨?_, ?_, ?_⟩
    · exact (rxTrigger_uartAt h _).trans (EdgeTrigger.exec_low (by omega) (hbits _).1)
    · refine (txTrigger_uartAt h _).trans (EdgeTrigger.exec_low (by omega) ?_)
      rw [(hbits _).2.1, decide_eq_false_iff_not]
      omega
    · simp only [UartCalls.run, Episode.after, hcall, Call.contents]
      rfl

end

/-! ### The words -/

variable {data : BitVec 8}

/-- **`uart1_rx` takes one word**, the one at the head when its bit goes up. -/
theorem popped_uart1Rx (h : Quiet m) (hcall : e.call = .uart1Rx) :
    popped c dvsr m e = [Rtl.Uart.rData (uartAt c dvsr m e (e.dwell 0 + 1))] := by
  have hbit := fun t => (inp_uart1Rx h.control hcall t).1
  refine (collect_once (k := e.dwell 0 + 1) fun u _ => ?_).trans (if_pos ?_)
  · rw [rd_rxIn h, EdgeTrigger.pulse_eq_of_interval (by omega) hbit]
    by_cases hu : u = e.dwell 0 + 1
    · simp [hu]
    · simp [hu]
  · rw [clocks_uart1Rx hcall]
    omega

lemma pushed_uart1Rx (h : Quiet m) (hcall : e.call = .uart1Rx) : pushed c dvsr m e = [] :=
  collect_eq_nil fun u _ => by
    rw [wr_txIn h,
      EdgeTrigger.pulse_of_low fun t => (inp_uart1Rx h.control hcall t).2]
    rfl

/-- **`uart1_tx` hands one word over**, its own. -/
theorem pushed_uart1Tx (h : Quiet m) (hcall : e.call = .uart1Tx data) :
    pushed c dvsr m e = [data] := by
  have hinp := inp_uart1Tx h.control hcall
  refine (collect_once (k := e.dwell 0 + 1 + (e.dwell 1 + 1)) fun u _ => ?_).trans (if_pos ?_)
  · rw [wr_txIn h, EdgeTrigger.pulse_eq_of_interval (by omega) fun t => (hinp t).2.1]
    by_cases hu : u = e.dwell 0 + 1 + (e.dwell 1 + 1)
    · have hdata : (txIn c dvsr m e u).wData = data := (hinp u).2.2 (by omega)
      rw [hdata]
      simp [hu]
    · simp [hu]
  · rw [clocks_uart1Tx hcall]
    omega

lemma popped_uart1Tx (h : Quiet m) (hcall : e.call = .uart1Tx data) : popped c dvsr m e = [] :=
  collect_eq_nil fun u _ => by
    rw [rd_rxIn h,
      EdgeTrigger.pulse_of_low fun t => (inp_uart1Tx h.control hcall t).1]
    rfl

lemma rPtrReg_run (m : Machine R W D) (e : Episode) :
    (run c dvsr m e).uart.fifoRxUnit.rPtrReg =
      m.uart.fifoRxUnit.rPtrReg + BitVec.ofNat R (popped c dvsr m e).length := by
  have hpart : (run c dvsr m e).uart.fifoRxUnit =
      exec Fifo.next m.uart.fifoRxUnit (rxIn c dvsr m e) (e.clocks m.regs) :=
    exec_part (fun _ => rfl) _
  rw [hpart]
  exact Fifo.ptr_exec Fifo.next_rPtrReg _ (fun u => by split <;> rfl) _

lemma wPtrReg_run (m : Machine R W D) (e : Episode) :
    (run c dvsr m e).uart.fifoTxUnit.wPtrReg =
      m.uart.fifoTxUnit.wPtrReg + BitVec.ofNat W (pushed c dvsr m e).length := by
  have hpart : (run c dvsr m e).uart.fifoTxUnit =
      exec Fifo.next m.uart.fifoTxUnit (txIn c dvsr m e) (e.clocks m.regs) :=
    exec_part (fun _ => rfl) _
  rw [hpart]
  exact Fifo.ptr_exec Fifo.next_wPtrReg _ (fun u => by split <;> rfl) _

/-! ### The word that is returned -/

/-- The bytes received and not read, from those before the call on. -/
def rxQueue (c : Settings) (dvsr : BitVec D) (m : Machine R W D) (e : Episode)
    (q : List (BitVec 8)) (t : ℕ) : List (BitVec 8) :=
  exec qstep q (fun u => Fifo.op (rxIn c dvsr m e u)) t

variable {q : List (BitVec 8)} {k : ℕ}

lemma rd_rxIn_poll (h : Quiet m) (hcall : e.call = .uart1Rx) (ht : t ≤ e.dwell 0) :
    (rxIn c dvsr m e t).rd = false := by
  have hbit := fun t => (inp_uart1Rx h.control hcall t).1
  rw [rd_rxIn h, EdgeTrigger.pulse_eq_of_interval (by omega) hbit,
    decide_eq_false_iff_not]
  omega

lemma rxQueue_succ (h : Quiet m) (hcall : e.call = .uart1Rx) (ht : t ≤ e.dwell 0) :
    rxQueue c dvsr m e q (t + 1) =
      rxQueue c dvsr m e q t ++ (Fifo.op (rxIn c dvsr m e t)).push.toList := by
  rw [rxQueue, exec_succ, qstep, Fifo.op, rd_rxIn_poll h hcall ht]
  rfl

lemma holds_uartAt (h : Quiet m) (hcall : e.call = .uart1Rx)
    (hq : Fifo.Holds m.uart.fifoRxUnit q)
    (hroom : ∀ t ≤ e.dwell 0 + 1, (rxQueue c dvsr m e q t).length < 2 ^ R)
    (ht : t ≤ e.dwell 0 + 1) :
    Fifo.Holds (uartAt c dvsr m e t).fifoRxUnit (rxQueue c dvsr m e q t) := by
  induction t with
  | zero => exact hq
  | succ t ih =>
    have hlow : (rxIn c dvsr m e t).rd = false := rd_rxIn_poll h hcall (by omega)
    exact (ih (by omega)).next (fun hrd => absurd (hlow.symm.trans hrd) Bool.false_ne_true)
      (hroom (t + 1) ht)

/-- **`uart1_rx` returns the word it takes**: what it reads once the status says that there is a
word is what its bit takes from the buffer, unless the buffer is overrun meanwhile. -/
theorem popped_eq_returned (h : Quiet m) (hcall : e.call = .uart1Rx)
    (hq : Fifo.Holds m.uart.fifoRxUnit q)
    (hroom : ∀ t ≤ e.dwell 0 + 1, (rxQueue c dvsr m e q t).length < 2 ^ R) (hk : k ≤ e.dwell 0)
    (hne : Rtl.Uart.rxEmpty (uartAt c dvsr m e k) = false) :
    popped c dvsr m e = [Rtl.Uart.rData (uartAt c dvsr m e k)] := by
  have hholds : ∀ t ≤ e.dwell 0 + 1,
      Fifo.Holds (uartAt c dvsr m e t).fifoRxUnit (rxQueue c dvsr m e q t) :=
    fun t ht => holds_uartAt h hcall hq hroom ht
  have hhead : ∀ t, k ≤ t → t ≤ e.dwell 0 + 1 →
      (rxQueue c dvsr m e q t).head? = some (Rtl.Uart.rData (uartAt c dvsr m e k)) := by
    intro t hkt
    induction t, hkt using Nat.le_induction with
    | base => exact fun ht => (hholds k ht).head? hne
    | succ t _ ih =>
      intro ht
      rw [rxQueue_succ h hcall (by omega), List.head?_append, ih (by omega)]
      rfl
  obtain ⟨r, hr⟩ := List.head?_eq_some_iff.mp (hhead _ (by omega) (le_refl (e.dwell 0 + 1)))
  have hlast := hholds (e.dwell 0 + 1) (le_refl _)
  rw [hr] at hlast
  rw [popped_uart1Rx h hcall]
  exact congrArg (fun x => [x]) hlast.rData_eq

/-- **The edge trigger ticks once for every run of its input, and each call moves one word**: for
every waveform, and after any calls from reset on, however long each of them keeps its bit. -/
theorem one_word (inp : ℕ → Bool) (c : Settings) (dvsr : BitVec D) (φ : ModMCounter.State D)
    (s₀ : Rtl.Uart.State R W D) (wData : BitVec 8) (es : List Episode) (e : Episode) :
    (∀ t, EdgeTrigger.tick (exec (EdgeTrigger.next true) EdgeTrigger.reset inp t) true (inp t) =
        true ↔ inp t = true ∧ (t = 0 ∨ inp (t - 1) = false)) ∧
      (∀ n, ticks (fun t => EdgeTrigger.tick
          (exec (EdgeTrigger.next true) EdgeTrigger.reset inp t) true (inp t)) 0 n =
        {p : ℕ × ℕ | MaximalRun inp n p.1 p.2}.ncard) ∧
      let m := es.foldl (run c dvsr) (start φ s₀ wData)
      (match e.call with
        | .uart1Rx => (∃ x, popped c dvsr m e = [x]) ∧ pushed c dvsr m e = []
        | .uart1Tx data => popped c dvsr m e = [] ∧ pushed c dvsr m e = [data]) ∧
        (run c dvsr m e).uart.fifoRxUnit.rPtrReg =
          m.uart.fifoRxUnit.rPtrReg + BitVec.ofNat R (popped c dvsr m e).length ∧
        (run c dvsr m e).uart.fifoTxUnit.wPtrReg =
          m.uart.fifoTxUnit.wPtrReg + BitVec.ofNat W (pushed c dvsr m e).length := by
  refine ⟨EdgeTrigger.tick_iff inp, EdgeTrigger.ticks_exec inp, ?_, rPtrReg_run _ e,
    wPtrReg_run _ e⟩
  have h : Quiet (es.foldl (run c dvsr) (start φ s₀ wData)) :=
    foldl_inv (fun _ _ hm => hm.run) (quiet_start φ s₀ wData) es
  cases hcall : e.call with
  | uart1Rx => exact ⟨⟨_, popped_uart1Rx h hcall⟩, pushed_uart1Rx h hcall⟩
  | uart1Tx data => exact ⟨popped_uart1Tx h hcall, pushed_uart1Tx h hcall⟩

end Blastit.Fw.UartCalls
