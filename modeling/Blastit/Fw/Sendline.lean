import Blastit.Fw.PortActs
import Blastit.Lib.Text
import Blastit.Rtl.UartDrain

/-!
`uart_sendline` with `UART_FLAG_SYNC`, on the port itself.

A call first waits until the transmit buffer is empty, so that its text has the whole buffer;
then it hands its characters over one by one.
-/

namespace Blastit.Fw.Sendline

open Blastit.Lib.Text Blastit.Lib.Clocked Blastit.Lib.Ring Blastit.Rtl Blastit.Rtl.UartFrame
  Blastit.Fw.UartCalls Blastit.Fw.PortActs

/-! ### The calls -/

/-- A call of `uart_sendline`: the string, the clocks up to the status read that ends the wait,
how long the calls of `uart1_tx` hold the registers, and the clocks after them. -/
structure Sent where
  str : List Byte
  poll : ℕ
  dwell : ℕ → ℕ → ℕ
  rest : ℕ

/-- The characters handed over from index `i` on. -/
def txActs (dwell : ℕ → ℕ → ℕ) : ℕ → List Byte → List Act
  | _, [] => []
  | i, c :: str => .call (.uart1Tx c) (dwell i) :: txActs dwell (i + 1) str

namespace Sent

variable (l : Sent)

/-- What `strlen` counts. -/
def text : List Byte := cstr l.str

def acts : List Act := .wait l.poll :: (txActs l.dwell 0 l.text ++ [.wait l.rest])

end Sent

def sendlines (ls : List Sent) : List Act := ls.flatMap Sent.acts

def texts (ls : List Sent) : List Byte := ls.flatMap Sent.text

variable {R W D : ℕ} {r : Rtl.Uart.Drive R W D} {q : Regs} {line : ℕ → Bool} {ls xs : List Sent}
  {l : Sent} {t : ℕ}

/-- Each call has read the status while the transmit buffer was empty. -/
def Waited (r : Rtl.Uart.Drive R W D) (q : Regs) (ls : List Sent) : Prop :=
  ∀ xs l, xs ++ [l] <+: ls →
    Rtl.Uart.txEmpty (r.state (clocks q (sendlines xs) + l.poll)) = true

/-- The port is driven by the calls. -/
structure Sends (r : Rtl.Uart.Drive R W D) (q : Regs) (line : ℕ → Bool) (ls : List Sent) : Prop where
  control : q.uart1WrControl = 0
  inp : r.inp = PortActs.inp line q (sendlines ls)
  osTick : 0 < r.c.osTick.toNat
  sbTick : 0 < r.c.sbTick.toNat
  length : ∀ l ∈ ls, l.text.length ≤ 2 ^ W - 1
  waited : Waited r q ls

/-! ### What is written -/

lemma data_txActs (dwell : ℕ → ℕ → ℕ) (str : List Byte) (i : ℕ) :
    (txActs dwell i str).filterMap Act.data = str := by
  induction str generalizing i with
  | nil => rfl
  | cons c str ih => simp [txActs, Act.data, ih]

lemma data_acts (l : Sent) : l.acts.filterMap Act.data = l.text := by
  rw [Sent.acts, List.filterMap_cons_none rfl, List.filterMap_append, data_txActs,
    List.filterMap_cons_none rfl, List.filterMap_nil, List.append_nil]

lemma data_sendlines (ls : List Sent) : (sendlines ls).filterMap Act.data = texts ls := by
  induction ls with
  | nil => rfl
  | cons l ls ih =>
    rw [sendlines, List.flatMap_cons, List.filterMap_append, data_acts, ← sendlines, ih]
    rfl

lemma sendlines_append (xs ys : List Sent) :
    sendlines (xs ++ ys) = sendlines xs ++ sendlines ys := List.flatMap_append

lemma sendlines_initial (h : xs <+: ls) : sendlines xs <+: sendlines ls := by
  obtain ⟨ys, rfl⟩ := h
  exact ⟨sendlines ys, (sendlines_append xs ys).symm⟩

section
variable (h : Sends r q line ls)
include h

lemma Sends.written_le {as : List Act} (has : as <+: sendlines ls) (ht : t ≤ clocks q as) :
    Rtl.Uart.written r.inp t <+: as.filterMap Act.data := by
  obtain ⟨bs, hbs⟩ := has
  rw [h.inp, ← hbs, written_append ht]
  exact written_initial line h.control as t

lemma Sends.written_eq {as : List Act} (has : as <+: sendlines ls) :
    Rtl.Uart.written r.inp (clocks q as) = as.filterMap Act.data := by
  obtain ⟨bs, hbs⟩ := has
  rw [h.inp, ← hbs, written_append (Nat.le_refl _)]
  exact written_clocks line h.control as

/-- Nothing is written while a call waits. -/
lemma Sends.written_poll (hl : xs ++ [l] <+: ls) {k : ℕ} (hk : k ≤ l.poll) :
    Rtl.Uart.written r.inp (clocks q (sendlines xs) + k) = texts xs := by
  have hwait : sendlines xs ++ [.wait l.poll] <+: sendlines ls := by
    refine List.IsPrefix.trans ?_ (sendlines_initial hl)
    rw [sendlines_append]
    refine (List.prefix_append_right_inj _).mpr ?_
    simp [sendlines, Sent.acts]
  have hend : clocks q (sendlines xs) + k ≤ clocks q (sendlines xs ++ [.wait l.poll]) := by
    rw [clocks_snoc]
    simp only [Act.clocks, Act.contents, span]
    omega
  have hxs : sendlines xs <+: sendlines ls := (List.prefix_append _ _).trans hwait
  have hle := h.written_le hwait hend
  have hge : Rtl.Uart.written r.inp (clocks q (sendlines xs)) <+:
      Rtl.Uart.written r.inp (clocks q (sendlines xs) + k) :=
    collect_initial _ (Nat.le_add_right _ _)
  have hnone : [Act.wait l.poll].filterMap Act.data = [] := rfl
  rw [List.filterMap_append, hnone, List.append_nil, data_sendlines] at hle
  rw [h.written_eq hxs, data_sendlines] at hge
  exact hle.eq_of_length_le hge.length_le

end

/-! ### Room -/

lemma length_queue_le (r : Rtl.Uart.Drive R W D) (a k : ℕ) :
    (r.queue (a + k)).length + (Rtl.Uart.written r.inp a).length ≤
      (r.queue a).length + (Rtl.Uart.written r.inp (a + k)).length := by
  have hw : ∀ t, Rtl.Uart.written r.inp t = collect (fun u => (r.ops u).push.toList) t := by
    intro t
    refine collect_congr fun u _ => ?_
    simp only [Rtl.Uart.Drive.ops]
    split <;> rfl
  have hq : r.queue (a + k) = exec qstep (r.queue a) (fun u => r.ops (a + u)) k := exec_add a k
  have hle := length_exec_le (r.queue a) (fun u => r.ops (a + u)) k
  rw [← hq] at hle
  rw [hw, hw, collect_add, List.length_append]
  omega

lemma lt_of_le_sub_one {n : ℕ} (h : n ≤ 2 ^ W - 1) : n < 2 ^ W := by
  have := Nat.two_pow_pos W
  omega

/-- **The text of a call fits**: up to its end the transmit buffer is not overrun. -/
lemma Sends.room (h : Sends r q line ls) (hxs : xs <+: ls)
    (ht : t ≤ clocks q (sendlines xs) ∨ xs = ls) : (r.queue t).length ≤ 2 ^ W - 1 := by
  induction xs using List.reverseRecOn generalizing t with
  | nil =>
    have hw : Rtl.Uart.written r.inp t = [] := by
      rcases ht with ht | ht
      · have hpre := h.written_le List.nil_prefix ht
        exact List.prefix_nil.mp hpre
      · have hpre := written_initial line h.control (sendlines ls) t
        rw [← h.inp, data_sendlines, ← ht] at hpre
        exact List.prefix_nil.mp hpre
    have hle := length_queue_le r 0 t
    rw [Nat.zero_add, hw] at hle
    simp only [Rtl.Uart.Drive.queue, exec_zero, List.length_nil] at hle ⊢
    omega
  | append_singleton xs l ih =>
    have hpre : xs <+: ls := (List.prefix_append _ _).trans hxs
    set a := clocks q (sendlines xs) with ha
    have hbefore : ∀ u ≤ a, (r.queue u).length ≤ 2 ^ W - 1 := fun u hu => ih hpre (.inl hu)
    have hwait : ∀ k ≤ l.poll, (r.queue (a + k)).length ≤ 2 ^ W - 1 := by
      intro k hk
      have hle := length_queue_le r a k
      have hw := h.written_poll hxs hk
      have hw₀ := h.written_poll hxs (Nat.zero_le l.poll)
      rw [Nat.add_zero] at hw₀
      rw [hw, hw₀] at hle
      have := hbefore a (Nat.le_refl _)
      omega
    have hupto : ∀ u ≤ a + l.poll, (r.queue u).length ≤ 2 ^ W - 1 := by
      intro u hu
      rcases Nat.le_total u a with hua | hua
      · exact hbefore u hua
      · obtain ⟨k, rfl⟩ := Nat.exists_eq_add_of_le hua
        exact hwait k (by omega)
    rcases Nat.le_total t (a + l.poll) with hta | hta
    · exact hupto t hta
    · -- the buffer was empty when the wait ended, and what came in since is text of this call
      have hrun := Rtl.Uart.Drive.run_mode h.osTick h.sbTick (a + l.poll)
        fun u hu => lt_of_le_sub_one (hupto u hu)
      have hnil : r.queue (a + l.poll) = [] := hrun.1.empty_iff.mp (h.waited xs l hxs)
      obtain ⟨k, rfl⟩ := Nat.exists_eq_add_of_le hta
      have hle := length_queue_le r (a + l.poll) k
      rw [hnil, h.written_poll hxs (Nat.le_refl _), List.length_nil] at hle
      have hw : Rtl.Uart.written r.inp (a + l.poll + k) <+: texts (xs ++ [l]) := by
        rcases ht with ht | ht
        · have hall := h.written_le (sendlines_initial hxs) ht
          rwa [data_sendlines] at hall
        · have hall := written_initial line h.control (sendlines ls) (a + l.poll + k)
          rwa [← h.inp, data_sendlines, ← ht] at hall
      have hlen := hw.length_le
      have htext := h.length l (hxs.subset (by simp))
      simp only [texts, List.flatMap_append, List.flatMap_cons, List.flatMap_nil, List.append_nil,
        List.length_append] at hlen hle
      omega

/-! ### The line -/

/-- **What `uart_sendline` sends**: with any texts that fit into the transmit buffer and at any
pace, on any tick schedule, the transmit buffer is never overrun; the bytes sent and the bytes
waiting are always a beginning of the texts; and when the buffer is empty after the last call,
the line has carried exactly the frames of the texts, in order. -/
theorem carries_texts (h : Sends r q line ls) :
    (∀ t, (r.queue t).length ≤ 2 ^ W - 1) ∧
      (∀ t, r.sent t ++ r.queue t <+: texts ls) ∧
      ∀ t, clocks q (sendlines ls) ≤ t → Rtl.Uart.txEmpty (r.state t) = true →
        (r.state t).uartTxUnit.stateReg = .idle ∧
          Rtl.Uart.Carries r.c r.tickAt r.line (texts ls) t := by
  have hroom : ∀ t, (r.queue t).length ≤ 2 ^ W - 1 := fun t => h.room List.prefix_rfl (.inr rfl)
  have hinit : ∀ t, Rtl.Uart.written r.inp t <+: texts ls := by
    intro t
    have hpre := written_initial line h.control (sendlines ls) t
    rwa [← h.inp, data_sendlines] at hpre
  refine ⟨hroom, fun t => ?_, fun t ht he => ?_⟩
  · have hpop : ∀ u < t, Rtl.Uart.txDoneTick r.c (r.state u) = true → r.queue u ≠ [] := by
      intro u _
      exact (Rtl.Uart.Drive.run_mode h.osTick h.sbTick u
        fun v _ => lt_of_le_sub_one (hroom v)).2.pop
    rw [Rtl.Uart.Drive.sent_append_queue hpop]
    exact hinit t
  · have hdrained := Rtl.Uart.Drive.drained_of_txEmpty h.osTick h.sbTick (fun u _ => hroom u) he
    have hall : Rtl.Uart.written r.inp t = texts ls := by
      have heq := h.written_eq (List.prefix_refl (sendlines ls))
      rw [data_sendlines] at heq
      have hge : Rtl.Uart.written r.inp (clocks q (sendlines ls)) <+: Rtl.Uart.written r.inp t :=
        collect_initial _ ht
      rw [heq] at hge
      exact (hinit t).eq_of_length_le hge.length_le
    exact ⟨hdrained.idle, hall ▸ hdrained.carries⟩

/-- Two calls, the second of which waits for the text of the first to go out. -/
def twoCalls : List Sent :=
  [⟨ascii "at", 0, fun _ _ => 0, 0⟩, ⟨ascii "\r", 24, fun _ _ => 0, 12⟩]

/-- A tick at every clock, and a bit at every tick. -/
def twoCallsDrive : Rtl.Uart.Drive 1 2 1 where
  c := ⟨8, 0, 1, 1⟩
  baud := fun _ => ⟨0, true⟩
  before := Rtl.Uart.blank
  inp := PortActs.inp (fun _ => true) ⟨0, 0⟩ (sendlines twoCalls)

lemma sends_twoCalls : Sends twoCallsDrive ⟨0, 0⟩ (fun _ => true) twoCalls where
  control := rfl
  inp := rfl
  osTick := by decide
  sbTick := by decide
  length := by decide
  waited := by
    intro xs l hl
    rcases xs with _ | ⟨x, _ | ⟨y, xs⟩⟩
    · obtain ⟨rfl, -⟩ := List.cons_prefix_cons.mp hl
      rfl
    · obtain ⟨hx, hl⟩ := List.cons_prefix_cons.mp hl
      obtain ⟨rfl, -⟩ := List.cons_prefix_cons.mp hl
      rw [hx]
      decide +kernel
    · have := hl.length_le
      simp [twoCalls] at this

theorem carries_twoCalls : (∀ t, (twoCallsDrive.queue t).length ≤ 3) ∧
    Rtl.Uart.Carries twoCallsDrive.c twoCallsDrive.tickAt twoCallsDrive.line (ascii "at\r") 58 := by
  obtain ⟨hroom, -, hcarries⟩ := carries_texts sends_twoCalls
  exact ⟨hroom, (hcarries 58 (by decide) (by decide +kernel)).2⟩

end Blastit.Fw.Sendline
