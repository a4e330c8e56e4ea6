import Blastit.Fw.PortReadline
import Blastit.Fw.Sendline
import Blastit.Rtl.Loopback

/-!
Two boards, the `tx` of the first wired to the `rx` of the second: what `uart_sendline` is
given on the first is what `uart_readline` returns on the second.
-/

namespace Blastit.Fw.BoardLink

open Blastit.Lib.Text Blastit.Lib.Clocked Blastit.Lib.Pieces Blastit.Rtl Blastit.Rtl.UartFrame
  Blastit.Fw.UartCalls Blastit.Fw.PortActs Blastit.Fw.Line Blastit.Fw.LineAssembly
  Blastit.Fw.PortReadline Blastit.Fw.Sendline

/-- The two boards: the settings of their ports, the phases of their baud counters, what was in
their buffers before reset, and the calls of `uart_sendline` on the first. -/
structure Link (R W D : ℕ) where
  c : Settings
  dvsr : BitVec D
  phaseA : ModMCounter.State D
  phaseB : ModMCounter.State D
  beforeA : Rtl.Uart.State R W D
  beforeB : Rtl.Uart.State R W D
  rxA : ℕ → Bool
  wDataA : BitVec 8
  wDataB : BitVec 8
  sent : List Sent

namespace Link

variable {R W D : ℕ} (L : Link R W D)

def inA : ℕ → Rtl.Uart.In := PortActs.inp L.rxA ⟨0, L.wDataA⟩ (sendlines L.sent)

/-- The port of the first board. -/
def drive : Rtl.Uart.Drive R W D :=
  ⟨L.c, exec ModMCounter.next L.phaseA fun _ => L.dvsr, L.beforeA, L.inA⟩

/-- The port of the second. -/
def peer : Site R W D where
  c := L.c
  dvsr := L.dvsr
  phase := L.phaseB
  before := L.beforeB
  line t := Rtl.Uart.tx (Rtl.Uart.run L.c L.dvsr L.phaseA L.beforeA L.inA t)
  wData := L.wDataB

/-- The two ports while the second board does `as`. -/
def loopback (as : List Act) : Loopback R W D where
  c := L.c
  dvsr := L.dvsr
  phaseA := L.phaseA
  phaseB := L.phaseB
  beforeA := L.beforeA
  beforeB := L.beforeB
  inA := L.inA
  inB := L.peer.inp as

/-- Eight data bits, bits of two ticks at least, a stop bit not shorter than a bit, and texts
that end with the first `eol` in them. -/
structure Suits (eol : Byte) : Prop where
  dbit : L.c.dbit = 8
  os : 2 ≤ L.c.osTick.toNat
  sb : L.c.osTick.toNat ≤ L.c.sbTick.toNat
  phaseA : ModMCounter.Phase L.dvsr L.phaseA
  phaseB : ModMCounter.Phase L.dvsr L.phaseB
  sends : Sends L.drive ⟨0, L.wDataA⟩ L.rxA L.sent
  lines : ∀ l ∈ L.sent, EndsAt eol uartRxBufsz l.text

end Link

/-! ### Texts and lines -/

variable {eol : Byte} {ls : List Sent}

lemma nul_not_mem_texts (ls : List Sent) : (0 : Byte) ∉ texts ls := by
  rw [texts, List.mem_flatMap]
  rintro ⟨l, -, hl⟩
  exact not_mem_cstr _ hl

lemma cuts_texts (h : ∀ l ∈ ls, EndsAt eol uartRxBufsz l.text) :
    Cuts eol uartRxBufsz (ls.map Sent.text) (texts ls) [] := by
  induction ls with
  | nil => exact .nil
  | cons l ls ih =>
    rw [List.forall_mem_cons] at h
    exact .cons (.inl h.1) (ih h.2)

/-- The pieces of a beginning of the texts are the first of the texts. -/
lemma pieces_initial {s : List Byte} (h : ∀ l ∈ ls, EndsAt eol uartRxBufsz l.text)
    (hs : s <+: texts ls) : pieces eol uartRxBufsz s <+: ls.map Sent.text := by
  obtain ⟨t, ht⟩ := hs
  have hof : (cut eol uartRxBufsz s).Of eol uartRxBufsz s := of_cut (by decide) s
  have hcut := hof.cuts.extend t
  rw [ht] at hcut
  exact hcut.initial (cuts_texts h) ⟨by simp, Nat.zero_le _⟩

lemma lowBits_eq_self {c : Settings} (h : c.dbit = 8) (bytes : List Byte) :
    bytes.map c.lowBits = bytes := by
  refine List.map_id'' (fun x => ?_) bytes
  simp [Settings.lowBits, h]

/-! ### The wire -/

section
variable {R W D : ℕ} {L : Link R W D} {as : List Act} {t : ℕ}

lemma run_eq_state (c : Settings) (dvsr : BitVec D) (φ : ModMCounter.State D)
    (s₀ : Rtl.Uart.State R W D) (inp : ℕ → Rtl.Uart.In) (t : ℕ) :
    Rtl.Uart.run c dvsr φ s₀ inp t =
      (⟨c, exec ModMCounter.next φ fun _ => dvsr, s₀, inp⟩ : Rtl.Uart.Drive R W D).state t := by
  rw [← Rtl.Uart.exec_eq_state]
  induction t with
  | zero => rfl
  | succ t ih =>
    rw [exec_succ, ← ih]
    rfl

lemma txQueue_eq (l : Loopback R W D) (t : ℕ) : l.txQueue t =
    (⟨l.c, exec ModMCounter.next l.phaseA fun _ => l.dvsr, l.beforeA, l.inA⟩ :
      Rtl.Uart.Drive R W D).queue t := by
  have hops : Rtl.Uart.txOps l.c l.dvsr l.phaseA l.beforeA l.inA =
      (⟨l.c, exec ModMCounter.next l.phaseA fun _ => l.dvsr, l.beforeA, l.inA⟩ :
        Rtl.Uart.Drive R W D).ops := by
    funext u
    simp only [Rtl.Uart.txOps, Rtl.Uart.Drive.ops, run_eq_state]
  exact congrArg (fun ops => exec Lib.Ring.qstep [] ops t) hops

lemma Link.written_initial (L : Link R W D) (as : List Act) (t : ℕ) :
    (L.loopback as).written t <+: texts L.sent := by
  rw [← data_sendlines]
  exact PortActs.written_initial L.rxA rfl (sendlines L.sent) t

variable (h : L.Suits eol)
include h

lemma Link.Suits.feeds (as : List Act) : (L.loopback as).Feeds where
  valid := ⟨.inr h.dbit, lt_of_lt_of_le (by decide) h.os,
    lt_of_lt_of_le (by decide) (h.os.trans h.sb)⟩
  phaseA := h.phaseA
  phaseB := h.phaseB
  txRoom t := by
    rw [txQueue_eq]
    exact h.sends.room List.prefix_rfl (.inr rfl)

lemma Link.Suits.samples (as : List Act) : (L.loopback as).Samples := ⟨h.os, h.sb⟩

lemma Link.Suits.delivered_initial (as : List Act) (t : ℕ) :
    L.peer.delivered as t <+: texts L.sent := by
  have hdel := Loopback.delivered_initial (h.feeds as) (h.samples as) t
  have hc : (L.loopback as).c.dbit = 8 := h.dbit
  rw [lowBits_eq_self hc] at hdel
  exact hdel.trans (L.written_initial as t)

lemma Link.Suits.exists_delivered (as : List Act) :
    ∃ n, ∀ t, n ≤ t → L.peer.delivered as t = texts L.sent := by
  obtain ⟨n, hn⟩ := Loopback.exists_delivered (h.feeds as) (h.samples as)
    (clocks ⟨0, L.wDataA⟩ (sendlines L.sent))
  have hc : (L.loopback as).c.dbit = 8 := h.dbit
  have hall : (L.loopback as).written (clocks ⟨0, L.wDataA⟩ (sendlines L.sent)) = texts L.sent := by
    rw [← data_sendlines]
    exact written_clocks L.rxA rfl (sendlines L.sent)
  rw [lowBits_eq_self hc, hall] at hn
  refine ⟨n, fun t ht => ?_⟩
  have hge : texts L.sent <+: L.peer.delivered as t := hn.trans (collect_initial _ ht)
  exact (h.delivered_initial as t).eq_of_length_le hge.length_le

end

/-! ### Main result -/

/-- **What one board sends is what the other reads.** Whatever the pace of the calls on the two
boards and the phases of their baud counters, as long as the receive buffer of the second is not
overrun: the lines its calls of `uart_readline` return are the first of the texts that
`uart_sendline` was given, each whole and in order; these, what is buffered and what is unread
are a beginning of the texts; and every text arrives. -/
theorem lines_arrive {R W D : ℕ} {L : Link R W D} {u₀ u : Uart.State} {dbit : Uart.UartDbit}
    {pbit : Uart.UartParity} {sbit : Uart.UartSbit} {baud : BitVec 32} {pace : ℕ → Pace}
    {vs : List Visit} {rs : List (LineAssembly.Call × Reply)} {b : Board}
    (h : L.Suits u.uartEol)
    (hopen : Uart.uartOpen u₀ dbit sbit pbit baud = .ok (Uart.uartReady, u))
    (hr : readlines L.peer pace vs (.opened u) = some (rs, b)) (hroom : Roomy L.peer b.acts) :
    (∃ ls, List.Forall₂ Returns (rs.filter isLine) ls ∧ ls <+: L.sent.map Sent.text ∧
      ls.flatten ++ b.uart.rxBuf ++ L.peer.unread b.acts (L.peer.now b.acts) <+: texts L.sent) ∧
    ∃ n, ∀ t, n ≤ t → L.peer.delivered b.acts t = texts L.sent := by
  have hinit := h.delivered_initial b.acts (L.peer.now b.acts)
  have hnul : (0 : Byte) ∉ L.peer.delivered b.acts (L.peer.now b.acts) :=
    fun hmem => nul_not_mem_texts _ (hinit.subset hmem)
  obtain ⟨⟨ls, hret, hpieces, hall⟩, -⟩ := accounts_of_readlines hopen hr hroom hnul
  refine ⟨⟨ls, hret, hpieces.trans (pieces_initial h.lines hinit), ?_⟩,
    h.exists_delivered b.acts⟩
  rw [hall]
  exact hinit

/-- One call on the first board, with two ticks a bit and a tick every clock. -/
def promptLink : Link 1 2 1 where
  c := ⟨8, 0, 2, 2⟩
  dvsr := 0
  phaseA := ModMCounter.reset
  phaseB := ModMCounter.reset
  beforeA := Rtl.Uart.blank
  beforeB := Rtl.Uart.blank
  rxA := fun _ => true
  wDataA := 0
  wDataB := 0
  sent := [⟨ascii "k>", 0, fun _ _ => 0, 0⟩]

lemma suits_promptLink : promptLink.Suits 0x3e where
  dbit := rfl
  os := by decide
  sb := by decide
  phaseA := ⟨by decide, by decide⟩
  phaseB := ⟨by decide, by decide⟩
  sends := {
    control := rfl
    inp := rfl
    osTick := by decide
    sbTick := by decide
    length := by decide
    waited := by
      intro xs l hl
      rcases xs with _ | ⟨x, xs⟩
      · obtain ⟨rfl, -⟩ := List.cons_prefix_cons.mp hl
        rfl
      · have := hl.length_le
        simp [promptLink] at this }
  lines := by
    intro l hl
    obtain rfl := List.mem_singleton.mp hl
    exact ⟨ascii "k", rfl, by decide, by decide⟩

/-- The second board reads the status every 28 clocks. -/
def patient (_ : ℕ) : Pace := ⟨27, fun _ => 0, 0⟩

theorem lines_arrive_promptLink : ∃ rs b,
    readlines promptLink.peer patient [⟨[], by simp, waiting⟩] (.opened openedState) =
        some (rs, b) ∧
      rs.map (fun q => (q.2.rc, q.2.str)) = [(2, some [0x6b, 0x3e, 0, 0])] ∧
      ∃ ls, List.Forall₂ Returns (rs.filter isLine) ls ∧ ls <+: [ascii "k>"] := by
  have hopen : Uart.uartOpen { Uart.initial with uartEol := 0x3e } Uart.uartDbit8 .one
      Uart.uartParityNone 115200 = .ok (Uart.uartReady, openedState) := rfl
  have hrun : (readlines promptLink.peer patient [⟨[], by simp, waiting⟩]
      (.opened openedState)).map
      (fun q => (q.1.map fun r => (r.2.rc, r.2.str), decide (Roomy promptLink.peer q.2.acts))) =
        some ([(2, some [0x6b, 0x3e, 0, 0])], true) := by decide +kernel
  obtain ⟨⟨rs, b⟩, hr, hq⟩ := Option.map_eq_some_iff.mp hrun
  simp only [Prod.mk.injEq, decide_eq_true_eq] at hq
  obtain ⟨hrs, hroom⟩ := hq
  obtain ⟨⟨ls, hret, hls, -⟩, -⟩ := lines_arrive suits_promptLink hopen hr hroom
  exact ⟨rs, b, hr, hrs, ls, hret, hls⟩

end Blastit.Fw.BoardLink
