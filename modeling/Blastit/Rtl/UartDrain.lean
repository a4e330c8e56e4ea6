import Blastit.Rtl.Uart

/-!
What has gone out on the line when the transmit buffer is empty.

The byte of a frame leaves the buffer on the last tick of its stop bit, so an empty buffer
means that no frame is on its way. This holds on any tick schedule and for any settings:
where the number of data bits is one the three-bit counter does not reach, a first byte
keeps the transmitter and the buffer busy for ever.
-/

namespace Blastit.Rtl.Uart

open Blastit.Lib.Clocked Blastit.Lib.Ring Blastit.Lib.Ticks Blastit.Rtl.UartFrame

variable {R W D : ℕ}

/-! ### Frames on a line -/

/-- On the `n` clocks after clock `a` the line shows the slots of the frame of `byte`, from
the first tick to the last; the ticks are those of the clock before. -/
structure Frame (c : Settings) (tick line : ℕ → Bool) (byte : BitVec 8) (a n : ℕ) : Prop where
  level : ∀ j < n, ∃ k s, k < c.bits + 2 ∧ s < c.txDur k ∧
    ticks tick a j = bound c.txDur k + s ∧ line (a + j + 1) = c.wire byte k
  ends : ticks tick a n = bound c.txDur (c.bits + 2)

/-- Up to clock `t` the line has carried the frames of `bytes`, one after the other, and was
high at all other times. -/
inductive Carries (c : Settings) (tick line : ℕ → Bool) : List (BitVec 8) → ℕ → Prop
  | start (h : line 0 = true) : Carries c tick line [] 0
  | rest {bytes : List (BitVec 8)} {t : ℕ} (hc : Carries c tick line bytes t)
    (h : line (t + 1) = true) : Carries c tick line bytes (t + 1)
  | frame {bytes : List (BitVec 8)} {byte : BitVec 8} {t n : ℕ}
    (hc : Carries c tick line bytes t) (h : Frame c tick line byte t n) :
    Carries c tick line (bytes ++ [byte]) (t + n)

/-! ### Runs on a tick schedule -/

/-- One clock edge, after which the baud generator is as given. -/
def nextOn (c : Settings) (s : State R W D) (i : In × ModMCounter.State D) : State R W D :=
  { next c 0 s i.1 with baudGenUnit := i.2 }

/-- A run from reset: the settings, what the baud generator is at each clock, the registers
before the reset, and the inputs. -/
structure Drive (R W D : ℕ) where
  c : Settings
  baud : ℕ → ModMCounter.State D
  before : State R W D
  inp : ℕ → In

namespace Drive

variable (r : Drive R W D)

def state (t : ℕ) : State R W D :=
  exec (nextOn r.c) (start (r.baud 0) r.before) (fun u => (r.inp u, r.baud (u + 1))) t

def tickAt (t : ℕ) : Bool := tick (r.state t)

def line (t : ℕ) : Bool := tx (r.state t)

/-- The pulses on `wr_uart` push onto the transmit queue, `tx_done_tick` pops it. -/
def ops (t : ℕ) : Op (BitVec 8) :=
  ⟨txDoneTick r.c (r.state t),
    if EdgeTrigger.pulse (fun u => (r.inp u).wrUart) t then some (r.inp t).wData else none⟩

def queue (t : ℕ) : List (BitVec 8) := exec qstep [] r.ops t

/-- The bytes whose `tx_done_tick` came before clock `t`. -/
def sent : ℕ → List (BitVec 8) := collect fun u => popped (r.queue u) (r.ops u)

/-- At clock `t` the transmitter rests, and the line has carried what was written. -/
structure Drained (t : ℕ) : Prop where
  idle : (r.state t).uartTxUnit.stateReg = .idle
  high : r.line t = true
  carries : Carries r.c r.tickAt r.line (written r.inp t) t

end Drive

lemma next_eq_nextOn (c : Settings) (dvsr : BitVec D) (s : State R W D) (i : In) :
    next c dvsr s i = nextOn c s (i, ModMCounter.next s.baudGenUnit dvsr) := rfl

/-- **A `uart` is such a run**, whatever its divisor is at each clock. -/
theorem exec_eq_state (c : Settings) (dvsr : ℕ → BitVec D) (φ : ModMCounter.State D)
    (s₀ : State R W D) (inp : ℕ → In) (t : ℕ) :
    exec (fun s (i : In × BitVec D) => next c i.2 s i.1) (start φ s₀)
        (fun u => (inp u, dvsr u)) t =
      (⟨c, exec ModMCounter.next φ dvsr, s₀, inp⟩ : Drive R W D).state t := by
  induction t with
  | zero => rfl
  | succ t ih =>
    have hbaud : ((⟨c, exec ModMCounter.next φ dvsr, s₀, inp⟩ : Drive R W D).state t).baudGenUnit =
        exec ModMCounter.next φ dvsr t := by
      cases t <;> rfl
    rw [exec_succ, ih, next_eq_nextOn, hbaud]
    rfl

namespace Drive

variable {r : Drive R W D} {t a j k s : ℕ} {byte : BitVec 8}

lemma state_txTrigger (t : ℕ) :
    (r.state t).uartTxTrigger =
      exec (EdgeTrigger.next true) EdgeTrigger.reset (fun u => (r.inp u).wrUart) t :=
  exec_part (fun _ => rfl) t

lemma sent_succ (t : ℕ) : r.sent (t + 1) = r.sent t ++ popped (r.queue t) (r.ops t) := rfl

/-! ### The transmit buffer -/

lemma holds_zero : Fifo.Holds (r.state 0).fifoTxUnit (r.queue 0) := Fifo.holds_reset _

lemma holds_succ (h : Fifo.Holds (r.state t).fifoTxUnit (r.queue t))
    (hpop : txDoneTick r.c (r.state t) = true → r.queue t ≠ [])
    (hroom : (r.queue (t + 1)).length < 2 ^ W) :
    Fifo.Holds (r.state (t + 1)).fifoTxUnit (r.queue (t + 1)) := by
  have hwr : wrUartTick (r.state t) (r.inp t) =
      EdgeTrigger.pulse (fun u => (r.inp u).wrUart) t := by
    rw [wrUartTick, state_txTrigger]
    exact EdgeTrigger.tick_exec _ t
  have hop : r.ops t = Fifo.op ⟨txDoneTick r.c (r.state t),
      wrUartTick (r.state t) (r.inp t), (r.inp t).wData⟩ := by
    rw [hwr]
    rfl
  have hq : r.queue (t + 1) = qstep (r.queue t) (r.ops t) := rfl
  rw [hq, hop] at hroom ⊢
  exact h.next hpop hroom

lemma sent_append_queue
    (hpop : ∀ u < t, txDoneTick r.c (r.state u) = true → r.queue u ≠ []) :
    r.sent t ++ r.queue t = written r.inp t := by
  have hw : written r.inp t = collect (fun u => (r.ops u).push.toList) t := by
    refine collect_congr fun u _ => ?_
    simp only [ops]
    split <;> rfl
  rw [hw]
  exact conservation _ hpop

lemma head_succ (hd : txDoneTick r.c (r.state t) = false) {x : BitVec 8}
    (hx : (r.queue t).head? = some x) : (r.queue (t + 1)).head? = some x := by
  have hq : r.queue (t + 1) = qstep (r.queue t) (r.ops t) := rfl
  have hpop : (r.ops t).pop = false := hd
  rw [hq, qstep, hpop]
  cases hl : r.queue t with
  | nil => simp [hl] at hx
  | cons y l => simpa [hl] using hx

lemma sent_succ_of_not_done (hd : txDoneTick r.c (r.state t) = false) :
    r.sent (t + 1) = r.sent t := by
  have hpop : (r.ops t).pop = false := hd
  rw [sent_succ, popped, hpop]
  simp

/-! ### Where the transmitter is -/

/-- Clock `a + j` of the frame of `byte`, which began at clock `a`. -/
structure Sends (r : Drive R W D) (byte : BitVec 8) (a j k s : ℕ) : Prop where
  lt : k < r.c.bits + 2
  short : s < r.c.txDur k
  count : ticks r.tickAt a j = bound r.c.txDur k + s
  slot : UartTx.At r.c byte k s (r.state (a + j)).uartTxUnit
  head : (r.queue (a + j)).head? = some byte
  before : Carries r.c r.tickAt r.line (r.sent (a + j)) a
  level : ∀ i < j, ∃ k s, k < r.c.bits + 2 ∧ s < r.c.txDur k ∧
    ticks r.tickAt a i = bound r.c.txDur k + s ∧ r.line (a + i + 1) = r.c.wire byte k

/-- The data bits can be counted. -/
def Counts (c : Settings) : Prop := 1 ≤ c.dbit.toNat ∧ c.dbit.toNat ≤ 8

/-- The transmitter rests, or sends a frame, or never gets to the end of one. -/
inductive Mode (r : Drive R W D) (t : ℕ) : Prop
  | idle (h : (r.state t).uartTxUnit.stateReg = .idle) (high : r.line t = true)
    (carries : Carries r.c r.tickAt r.line (r.sent t) t)
  | sends {byte : BitVec 8} {a j k s : ℕ} (ht : t = a + j) (hd : Counts r.c)
    (h : Sends r byte a j k s)
  | stuck (hd : ¬ Counts r.c) (h : (r.state t).uartTxUnit.stateReg = .start ∨
      (r.state t).uartTxUnit.stateReg = .data) (hne : r.queue t ≠ [])

lemma ne_nil_of_head {x : BitVec 8} (h : (r.queue t).head? = some x) : r.queue t ≠ [] := by
  intro hq
  rw [hq] at h
  cases h

/-- A byte leaves the buffer only when its frame has been sent. -/
lemma Mode.pop (h : Mode r t) (hd : txDoneTick r.c (r.state t) = true) : r.queue t ≠ [] := by
  cases h with
  | idle hi _ _ => exact absurd hd (by simp [txDoneTick, UartTx.txDoneTick, hi])
  | sends ht _ hs =>
    subst ht
    exact ne_nil_of_head hs.head
  | stuck _ _ hne => exact hne

/-! ### One clock -/

lemma uartTxUnit_succ (t : ℕ) :
    (r.state (t + 1)).uartTxUnit = UartTx.next r.c (r.state t).uartTxUnit (txIn (r.state t)) := rfl

lemma next_stuck {c : Settings} {st : UartTx.State} {i : UartTx.In} (hd : ¬ Counts c)
    (h : st.stateReg = .start ∨ st.stateReg = .data) :
    (UartTx.next c st i).stateReg = .start ∨ (UartTx.next c st i).stateReg = .data := by
  have hn := st.nReg.isLt
  have hlast : ¬ (st.nReg.setWidth 32 == c.dbit.setWidth 32 - 1) = true := by
    rw [Lib.Sizing.eq_sub_one_iff _ _ (by decide) (by decide)]
    unfold Counts at hd
    omega
  rcases h with h | h
  · simp only [UartTx.next, h]
    split_ifs <;> simp
  · simp only [UartTx.next, h, if_neg hlast]
    split_ifs <;> simp

lemma Mode.next_idle (hh : Fifo.Holds (r.state t).fifoTxUnit (r.queue t))
    (hos : 0 < r.c.osTick.toNat) (hi : (r.state t).uartTxUnit.stateReg = .idle)
    (hc : Carries r.c r.tickAt r.line (r.sent t) t) : Mode r (t + 1) := by
  obtain ⟨hhigh, hdone, hstart, hstay⟩ :=
    UartTx.next_idle (c := r.c) (i := txIn (r.state t)) hi
  have hnot : txDoneTick r.c (r.state t) = false := hdone
  have hc' : Carries r.c r.tickAt r.line (r.sent (t + 1)) (t + 1) := by
    rw [sent_succ_of_not_done hnot]
    exact hc.rest hhigh
  have hempty : (txIn (r.state t)).txStart = !Fifo.empty (r.state t).fifoTxUnit := rfl
  cases he : Fifo.empty (r.state t).fifoTxUnit with
  | true =>
    rw [he, Bool.not_true] at hempty
    exact .idle (hstay hempty) hhigh hc'
  | false =>
    rw [he, Bool.not_false] at hempty
    have hat := hstart hempty
    have hhead := head_succ hnot (hh.head? he)
    by_cases hd : Counts r.c
    · refine .sends (j := 0) rfl hd ⟨by omega, ?_, ?_, hat, hhead, hc', ?_⟩
      · rw [Settings.txDur_of_le (Nat.zero_le _)]
        exact hos
      · simp
      · intro i hlt
        omega
    · refine .stuck hd (.inl ?_) (ne_nil_of_head hhead)
      rw [uartTxUnit_succ, hat.phase]
      rfl

section
variable (h : Sends r byte a j k s)
include h

lemma Sends.din (hh : Fifo.Holds (r.state (a + j)).fifoTxUnit (r.queue (a + j))) :
    (txIn (r.state (a + j))).din = byte := by
  obtain ⟨x, q, hq⟩ := List.exists_cons_of_ne_nil (ne_nil_of_head h.head)
  have hd := h.head
  rw [hq] at hh hd
  rw [List.head?_cons, Option.some.injEq] at hd
  exact hh.rData_eq.trans hd

lemma Sends.line (hh : Fifo.Holds (r.state (a + j)).fifoTxUnit (r.queue (a + j))) :
    r.line (a + j + 1) = r.c.wire byte k :=
  UartTx.next_txReg h.slot h.lt (h.din hh)

lemma Sends.level_succ (hh : Fifo.Holds (r.state (a + j)).fifoTxUnit (r.queue (a + j))) :
    ∀ i < j + 1, ∃ k s, k < r.c.bits + 2 ∧ s < r.c.txDur k ∧
      ticks r.tickAt a i = bound r.c.txDur k + s ∧ r.line (a + i + 1) = r.c.wire byte k := by
  intro i hi
  rcases Nat.lt_succ_iff_lt_or_eq.mp hi with hlt | rfl
  · exact h.level i hlt
  · exact ⟨k, s, h.lt, h.short, h.count, h.line hh⟩

lemma Sends.step (hh : Fifo.Holds (r.state (a + j)).fifoTxUnit (r.queue (a + j)))
    (hd : txDoneTick r.c (r.state (a + j)) = false) {k' s' : ℕ} (hk : k' < r.c.bits + 2)
    (hs : s' < r.c.txDur k') (hcount : ticks r.tickAt a (j + 1) = bound r.c.txDur k' + s')
    (hat : UartTx.At r.c byte k' s' (r.state (a + (j + 1))).uartTxUnit) :
    Sends r byte a (j + 1) k' s' where
  lt := hk
  short := hs
  count := hcount
  slot := hat
  head := head_succ hd h.head
  before := by
    rw [← Nat.add_assoc, sent_succ_of_not_done hd]
    exact h.before
  level := h.level_succ hh

end

lemma Mode.next_sends (hh : Fifo.Holds (r.state (a + j)).fifoTxUnit (r.queue (a + j)))
    (hos : 0 < r.c.osTick.toNat) (hsb : 0 < r.c.sbTick.toNat) (hd : Counts r.c)
    (h : Sends r byte a j k s) : Mode r (a + (j + 1)) := by
  have hpos : ∀ k, 0 < r.c.txDur k := by
    intro k
    unfold Settings.txDur
    split <;> assumption
  have hdone : txDoneTick r.c (r.state (a + j)) = true ↔
      k = r.c.bits + 1 ∧ r.tickAt (a + j) = true ∧ s + 1 = r.c.txDur k :=
    UartTx.txDoneTick_iff h.slot h.lt
  have hticks : ticks r.tickAt a (j + 1) =
      ticks r.tickAt a j + if r.tickAt (a + j) = true then 1 else 0 := ticks_succ j
  cases ht : r.tickAt (a + j) with
  | false =>
    rw [ht, if_neg (by decide), Nat.add_zero, h.count] at hticks
    have hnot : txDoneTick r.c (r.state (a + j)) = false := by
      rw [Bool.eq_false_iff, Ne, hdone, ht]
      simp
    exact .sends rfl hd (h.step hh hnot h.lt h.short hticks (UartTx.next_no_tick h.slot h.lt ht))
  | true =>
    rw [ht, if_pos rfl, h.count] at hticks
    have hle := h.short
    rcases Nat.lt_or_eq_of_le (show s + 1 ≤ r.c.txDur k from hle) with hlt | heq
    · have hnot : txDoneTick r.c (r.state (a + j)) = false := by
        rw [Bool.eq_false_iff, Ne, hdone]
        omega
      exact .sends rfl hd (h.step hh hnot h.lt hlt hticks (UartTx.next_tick h.slot h.lt ht hlt))
    have hbound : ticks r.tickAt a (j + 1) = bound r.c.txDur (k + 1) := by
      rw [hticks, bound_succ]
      omega
    rcases Nat.lt_or_ge (k + 1) (r.c.bits + 2) with hk | hk
    · -- the tick that ends a slot
      have hnot : txDoneTick r.c (r.state (a + j)) = false := by
        rw [Bool.eq_false_iff, Ne, hdone]
        omega
      exact .sends rfl hd (h.step hh hnot hk (hpos _) hbound
        (UartTx.next_slot hd.1 hd.2 h.slot hk ht heq))
    · -- the tick that ends the frame
      have hlast : k = r.c.bits + 1 := by
        have := h.lt
        omega
      have hyes := hdone.mpr ⟨hlast, ht, heq⟩
      have hframe : Frame r.c r.tickAt r.line byte a (j + 1) :=
        ⟨h.level_succ hh, by rw [hbound, hlast]⟩
      have hsent : r.sent (a + (j + 1)) = r.sent (a + j) ++ [byte] := by
        have hpop : (r.ops (a + j)).pop = true := hyes
        rw [← Nat.add_assoc, sent_succ, popped, hpop, if_pos rfl, h.head]
        rfl
      refine .idle (UartTx.next_last h.slot hlast ht heq) ?_ (hsent ▸ .frame h.before hframe)
      rw [← Nat.add_assoc, h.line hh, hlast]
      have := r.c.dbit_le_bits
      rw [Settings.wire, if_neg (by omega), if_neg (by omega), if_neg (by omega)]

/-- **One clock of the transmitter.** -/
lemma Mode.next (h : Mode r t) (hh : Fifo.Holds (r.state t).fifoTxUnit (r.queue t))
    (hos : 0 < r.c.osTick.toNat) (hsb : 0 < r.c.sbTick.toNat) : Mode r (t + 1) := by
  cases h with
  | idle hi _ hc => exact .next_idle hh hos hi hc
  | sends ht hd hs =>
    subst ht
    have hnext := Mode.next_sends hh hos hsb hd hs
    exact hnext
  | stuck hd hst hne =>
    have hnot : txDoneTick r.c (r.state t) = false := by
      rcases hst with hst | hst <;> simp [txDoneTick, UartTx.txDoneTick, hst]
    obtain ⟨x, q, hq⟩ := List.exists_cons_of_ne_nil hne
    have hhead : (r.queue t).head? = some x := by rw [hq, List.head?_cons]
    exact .stuck hd (next_stuck hd hst) (ne_nil_of_head (head_succ hnot hhead))

/-! ### Runs -/

/-- As long as the buffer is not overrun it holds the queue, and the transmitter is in one
of its modes. -/
lemma run_mode (hos : 0 < r.c.osTick.toNat) (hsb : 0 < r.c.sbTick.toNat) :
    ∀ t, (∀ u ≤ t, (r.queue u).length < 2 ^ W) →
      Fifo.Holds (r.state t).fifoTxUnit (r.queue t) ∧ Mode r t
  | 0, _ => ⟨holds_zero, .idle rfl rfl (.start rfl)⟩
  | t + 1, hroom => by
    obtain ⟨hh, hm⟩ := run_mode hos hsb t fun u hu => hroom u (by omega)
    exact ⟨holds_succ hh hm.pop (hroom (t + 1) (Nat.le_refl _)), hm.next hh hos hsb⟩

/-- **A drained transmitter rests, and has sent what was written.** -/
theorem drained_of_txEmpty (hos : 0 < r.c.osTick.toNat) (hsb : 0 < r.c.sbTick.toNat)
    (hroom : ∀ u ≤ t, (r.queue u).length ≤ 2 ^ W - 1) (he : txEmpty (r.state t) = true) :
    r.Drained t := by
  have hroom' : ∀ u ≤ t, (r.queue u).length < 2 ^ W := by
    intro u hu
    have := hroom u hu
    have := Nat.two_pow_pos W
    omega
  have hrun := fun u (hu : u ≤ t) => run_mode hos hsb u fun v hv => hroom' v (by omega)
  obtain ⟨hh, hm⟩ := hrun t (Nat.le_refl _)
  have hnil : r.queue t = [] := hh.empty_iff.mp he
  have hlog := sent_append_queue fun u (hu : u < t) => (hrun u (by omega)).2.pop
  rw [hnil, List.append_nil] at hlog
  cases hm with
  | idle hi high hc => exact ⟨hi, high, hlog ▸ hc⟩
  | sends ht _ hs =>
    subst ht
    exact absurd hnil (ne_nil_of_head hs.head)
  | stuck _ _ hne => exact absurd hnil hne

end Drive

end Blastit.Rtl.Uart
