import Blastit.Fw.LineAssembly
import Blastit.Fw.PortActs

/-!
`uart_readline` on the port itself.

The loop reads the status and calls `uart1_rx` while `uart` runs; between two status reads the
receiver may deliver any bytes. What each status read finds is recorded as a `Poll`, and with
these polls the loop does what `Line.uartReadline` does.
-/

namespace Blastit.Fw.PortReadline

open Blastit.Lib.Text Blastit.Lib.Clocked Blastit.Lib.Ring Blastit.Lib.Pieces Blastit.Rtl
  Blastit.Rtl.UartFrame Blastit.Fw.UartCalls Blastit.Fw.PortActs Blastit.Fw.Line
  Blastit.Fw.LineAssembly

/-! ### The port -/

/-- A port out of reset, and its line. -/
structure Site (R W D : ℕ) where
  c : Settings
  dvsr : BitVec D
  phase : ModMCounter.State D
  before : Rtl.Uart.State R W D
  line : ℕ → Bool
  wData : BitVec 8

section
variable {R W D : ℕ} (S : Site R W D) (as : List Act)

namespace Site

def regs : Regs := ⟨0, S.wData⟩

def inp : ℕ → Rtl.Uart.In := PortActs.inp S.line S.regs as

def now : ℕ := clocks S.regs as

def uartAt (t : ℕ) : Rtl.Uart.State R W D :=
  Rtl.Uart.run S.c S.dvsr S.phase S.before (S.inp as) t

def delivered (t : ℕ) : List Byte :=
  Rtl.Uart.delivered S.c S.dvsr S.phase S.before (S.inp as) t

/-- Those of them that wait in the receive buffer. -/
def unread (t : ℕ) : List Byte := Rtl.Uart.rxQueue S.c S.dvsr S.phase S.before (S.inp as) t

end Site

/-! ### The calls -/

/-- How long the parts of a round take, and what the timer shows in it. -/
structure Pace where
  gap : ℕ
  dwell : ℕ → ℕ
  ticks : BitVec 32

/-- The variables of `uart.c`, what has been done with the port, and what the status reads have
found. -/
structure Board where
  uart : Uart.State
  acts : List Act
  polls : List Poll

/-- The bytes that the status reads have found. -/
def arrivals (polls : List Poll) : List Byte := polls.flatMap Poll.arrived

namespace Board

variable (k : Pace) (b : Board)

/-- A read of the status register; what has been delivered since the last one is new. -/
def status : Board :=
  let acts := b.acts ++ [.wait k.gap]
  { b with
    acts := acts
    polls := b.polls ++
      [⟨(S.delivered acts (S.now acts)).drop (arrivals b.polls).length, k.ticks⟩] }

def rxEmpty : Bool := Rtl.Uart.rxEmpty (S.uartAt b.acts (S.now b.acts))

/-- `uart1_rx`: it reads the word right before it sets its bit. -/
def uart1Rx : Byte × Board :=
  let acts := b.acts ++ [.call .uart1Rx k.dwell]
  (Rtl.Uart.rData (S.uartAt acts (S.now b.acts + k.dwell 0)), { b with acts := acts })

end Board

structure Reply where
  rc : ℤ
  str : Option (List Byte)
  board : Board

/-- One round of the loop. -/
def readRound (pace : ℕ → Pace) (sync : Bool) (bufsz : ℕ) (rc : ℤ) (b : Board) :
    Reply ⊕ (ℤ × Board) :=
  let u := b.uart
  if u.eol then
    .inl {
      rc := u.rxBuf.length
      str := if 0 < u.rxBuf.length then some (copyLine bufsz u.rxBuf) else none
      board := { b with uart := { u with eol := false, rxBuf := [] } } }
  else
    let k := pace b.polls.length
    let b := b.status S k
    if !b.rxEmpty S then
      if u.rxBuf.length = uartRxBufsz then .inr (rc, { b with uart := { u with eol := true } })
      else
        let (c, b) := b.uart1Rx S k
        let eol := decide (c = u.uartEol)
        .inr (if eol then rc else Uart.uartErrorRxBusy,
          { b with uart := { u with rxBuf := u.rxBuf ++ [c], eol := eol } })
    else if u.uartRxTimeout < k.ticks then .inl ⟨Uart.uartErrorTimeout, none, b⟩
    else if !sync then .inl ⟨rc, none, b⟩
    else .inr (rc, b)

def readLoop (pace : ℕ → Pace) (sync : Bool) (bufsz : ℕ) : ℕ → ℤ → Board → Option Reply
  | 0, _, _ => none
  | n + 1, rc, b =>
    match readRound S pace sync bufsz rc b with
    | .inl r => some r
    | .inr (rc, b) => readLoop pace sync bufsz n rc b

def uartReadline (pace : ℕ → Pace) (sync : Bool) (bufsz fuel : ℕ) (b : Board) : Option Reply :=
  readLoop S pace sync bufsz fuel 0 b

/-- What the firmware does between two calls, and a call. -/
structure Visit where
  acts : List Act
  noRx : ∀ a ∈ acts, a.isRx = false
  call : LineAssembly.Call

/-- The port when the call is made. -/
def Visit.arrive (v : Visit) (b : Board) : Board :=
  { b with
    acts := b.acts ++ v.acts
    uart := { b.uart with uartRxTimeout := v.call.uartRxTimeout } }

/-- The calls one after the other: what they return, and the port they leave. -/
def readlines (pace : ℕ → Pace) : List Visit → Board → Option (List (LineAssembly.Call × Reply) × Board)
  | [], b => some ([], b)
  | v :: vs, b => do
    let r ← uartReadline S pace v.call.sync v.call.bufsz v.call.fuel (v.arrive b)
    let (rs, b') ← readlines pace vs r.board
    return ((v.call, r) :: rs, b')

end

/-! ### The receive buffer -/

section
variable {R W D : ℕ} {c : Settings} {dvsr : BitVec D} {φ : ModMCounter.State D}
  {s₀ : Rtl.Uart.State R W D} {inp : ℕ → Rtl.Uart.In} {t n a : ℕ}

/-- The receive buffer holds the bytes not read. -/
def Held (c : Settings) (dvsr : BitVec D) (φ : ModMCounter.State D) (s₀ : Rtl.Uart.State R W D)
    (inp : ℕ → Rtl.Uart.In) (t : ℕ) : Prop :=
  Fifo.Holds (Rtl.Uart.run c dvsr φ s₀ inp t).fifoRxUnit (Rtl.Uart.rxQueue c dvsr φ s₀ inp t)

lemma rxQueue_succ (c : Settings) (dvsr : BitVec D) (φ : ModMCounter.State D)
    (s₀ : Rtl.Uart.State R W D) (inp : ℕ → Rtl.Uart.In) (t : ℕ) : ∃ new,
    Rtl.Uart.delivered c dvsr φ s₀ inp (t + 1) = Rtl.Uart.delivered c dvsr φ s₀ inp t ++ new ∧
    Rtl.Uart.rxQueue c dvsr φ s₀ inp (t + 1) =
      (if EdgeTrigger.pulse (fun u => (inp u).rdUart) t then
        (Rtl.Uart.rxQueue c dvsr φ s₀ inp t).tail
      else Rtl.Uart.rxQueue c dvsr φ s₀ inp t) ++ new := by
  refine ⟨(Rtl.Uart.rxOps c dvsr φ s₀ inp t).push.toList, ?_, rfl⟩
  rw [Rtl.Uart.delivered_eq, Rtl.Uart.delivered_eq]
  rfl

lemma Held.succ (h : Held c dvsr φ s₀ inp t)
    (hrd : EdgeTrigger.pulse (fun u => (inp u).rdUart) t = true →
      Rtl.Uart.rxQueue c dvsr φ s₀ inp t ≠ [])
    (hroom : (Rtl.Uart.rxQueue c dvsr φ s₀ inp (t + 1)).length < 2 ^ R) :
    Held c dvsr φ s₀ inp (t + 1) := by
  have hop : Rtl.Uart.rxOps c dvsr φ s₀ inp t =
      Fifo.op ⟨Rtl.Uart.rdUartTick (Rtl.Uart.run c dvsr φ s₀ inp t) (inp t),
        Rtl.Uart.rxDoneTick c (Rtl.Uart.run c dvsr φ s₀ inp t) (inp t),
        Rtl.Uart.rxDataOut c (Rtl.Uart.run c dvsr φ s₀ inp t)⟩ := by
    rw [Rtl.Uart.rdUartTick_run]
    rfl
  have hq : Rtl.Uart.rxQueue c dvsr φ s₀ inp (t + 1) =
      qstep (Rtl.Uart.rxQueue c dvsr φ s₀ inp t) (Rtl.Uart.rxOps c dvsr φ s₀ inp t) := rfl
  unfold Held
  rw [hq, hop] at hroom ⊢
  exact Fifo.Holds.next h (fun hp => hrd ((Rtl.Uart.rdUartTick_run t).symm.trans hp)) hroom

lemma Held.rest (h : Held c dvsr φ s₀ inp a)
    (hrd : ∀ k < n, EdgeTrigger.pulse (fun u => (inp u).rdUart) (a + k) = false)
    (hroom : ∀ k ≤ n, (Rtl.Uart.rxQueue c dvsr φ s₀ inp (a + k)).length < 2 ^ R) :
    Held c dvsr φ s₀ inp (a + n) ∧ ∃ new,
      Rtl.Uart.delivered c dvsr φ s₀ inp (a + n) =
        Rtl.Uart.delivered c dvsr φ s₀ inp a ++ new ∧
      Rtl.Uart.rxQueue c dvsr φ s₀ inp (a + n) = Rtl.Uart.rxQueue c dvsr φ s₀ inp a ++ new := by
  induction n with
  | zero => exact ⟨h, [], by simp, by simp⟩
  | succ n ih =>
    obtain ⟨hheld, new, hdel, hq⟩ :=
      ih (fun k hk => hrd k (by omega)) fun k hk => hroom k (by omega)
    have hlow := hrd n (Nat.lt_succ_self n)
    obtain ⟨more, hdel', hq'⟩ := rxQueue_succ c dvsr φ s₀ inp (a + n)
    rw [if_neg (by simp [hlow])] at hq'
    refine ⟨hheld.succ (fun hp => ?_) (hroom (n + 1) (Nat.le_refl _)), new ++ more, ?_, ?_⟩
    · rw [hlow] at hp
      cases hp
    · rw [← Nat.add_assoc, hdel', hdel, List.append_assoc]
    · rw [← Nat.add_assoc, hq', hq, List.append_assoc]

lemma Held.take {x : Byte} {q : List Byte} (h : Held c dvsr φ s₀ inp a)
    (hx : Rtl.Uart.rxQueue c dvsr φ s₀ inp a = x :: q)
    (hrd : EdgeTrigger.pulse (fun u => (inp u).rdUart) a = true)
    (hroom : (Rtl.Uart.rxQueue c dvsr φ s₀ inp (a + 1)).length < 2 ^ R) :
    Held c dvsr φ s₀ inp (a + 1) ∧ ∃ new,
      Rtl.Uart.delivered c dvsr φ s₀ inp (a + 1) =
        Rtl.Uart.delivered c dvsr φ s₀ inp a ++ new ∧
      Rtl.Uart.rxQueue c dvsr φ s₀ inp (a + 1) = q ++ new := by
  obtain ⟨new, hdel, hq⟩ := rxQueue_succ c dvsr φ s₀ inp a
  rw [if_pos hrd, hx, List.tail_cons] at hq
  exact ⟨h.succ (fun _ => by simp [hx]) hroom, new, hdel, hq⟩

end

/-! ### Acts on the port -/

section
variable {R W D : ℕ} {S : Site R W D} {F as : List Act} {a : Act} {t : ℕ}

lemma control_regs (S : Site R W D) : S.regs.uart1WrControl = 0 := rfl

lemma now_snoc (as : List Act) (a : Act) :
    S.now (as ++ [a]) = S.now as + a.clocks (after S.regs as) := clocks_snoc _ _ _

lemma uartAt_initial (h : as <+: F) (ht : t ≤ S.now as) : S.uartAt F t = S.uartAt as t := by
  obtain ⟨bs, rfl⟩ := h
  exact exec_congr fun u hu => inp_append (lt_of_lt_of_le hu ht)

lemma delivered_initial (h : as <+: F) (ht : t ≤ S.now as) :
    S.delivered F t = S.delivered as t := by
  refine collect_congr fun u hu => ?_
  have hu' : u ≤ S.now as := by omega
  have hrun : Rtl.Uart.run S.c S.dvsr S.phase S.before (S.inp F) u =
      Rtl.Uart.run S.c S.dvsr S.phase S.before (S.inp as) u := uartAt_initial h hu'
  have hin : S.inp F u = S.inp as u := by
    obtain ⟨bs, rfl⟩ := h
    exact inp_append (lt_of_lt_of_le hu ht)
  rw [hrun, hin]

lemma rdPulse (h : as ++ [a] <+: F) {k : ℕ} (hk : k < a.clocks (after S.regs as)) :
    EdgeTrigger.pulse (fun u => (S.inp F u).rdUart) (S.now as + k) = decide (a.rdAt = some k) := by
  obtain ⟨bs, rfl⟩ := h
  have hlt : S.now as + k < clocks S.regs (as ++ [a]) := by
    rw [clocks_snoc]
    exact Nat.add_lt_add_left hk _
  exact (pulse_append (f := Rtl.Uart.In.rdUart) hlt).trans (pulse_snoc (control_regs S) hk).1

/-- The receive buffer holds the unread bytes, and has never been read while it was empty. -/
structure HeldAt (S : Site R W D) (F : List Act) (t : ℕ) : Prop where
  held : Held S.c S.dvsr S.phase S.before (S.inp F) t
  ready : ∀ u < t, EdgeTrigger.pulse (fun u => (S.inp F u).rdUart) u = true →
    Rtl.Uart.rxEmpty (S.uartAt F u) = false

/-- The receive buffer is not overrun. -/
def Roomy (S : Site R W D) (F : List Act) : Prop :=
  ∀ t ≤ S.now F, (S.unread F t).length < 2 ^ R

instance (S : Site R W D) (F : List Act) : Decidable (Roomy S F) :=
  inferInstanceAs (Decidable (∀ t ≤ S.now F, _))

lemma now_mono (h : as <+: F) : S.now as ≤ S.now F := by
  obtain ⟨bs, rfl⟩ := h
  rw [Site.now, Site.now, clocks_append]
  exact Nat.le_add_right _ _

lemma HeldAt.act (h : HeldAt S F (S.now as)) (hF : as ++ [a] <+: F) (hroom : Roomy S F)
    (hrx : a.rdAt = none) :
    HeldAt S F (S.now (as ++ [a])) ∧ ∃ new,
      S.delivered F (S.now (as ++ [a])) = S.delivered F (S.now as) ++ new ∧
      S.unread F (S.now (as ++ [a])) = S.unread F (S.now as) ++ new := by
  have hend := now_mono (S := S) hF
  rw [now_snoc] at hend ⊢
  have hlow : ∀ k < a.clocks (after S.regs as),
      EdgeTrigger.pulse (fun u => (S.inp F u).rdUart) (S.now as + k) = false := by
    intro k hk
    rw [rdPulse hF hk, hrx]
    rfl
  obtain ⟨hheld, hnew⟩ := Held.rest h.held hlow fun k hk => hroom _ (by omega)
  refine ⟨⟨hheld, fun u hu hp => ?_⟩, hnew⟩
  rcases Nat.lt_or_ge u (S.now as) with hlt | hge
  · exact h.ready u hlt hp
  · obtain ⟨k, rfl⟩ := Nat.exists_eq_add_of_le hge
    rw [hlow k (by omega)] at hp
    cases hp

/-- **`uart1_rx` on the port**: it returns the head of the unread bytes and takes it. -/
lemma HeldAt.uart1Rx {dwell : ℕ → ℕ} {x : Byte} {q : List Byte} (h : HeldAt S F (S.now as))
    (hF : as ++ [.call .uart1Rx dwell] <+: F) (hroom : Roomy S F)
    (hx : S.unread F (S.now as) = x :: q) :
    Rtl.Uart.rData (S.uartAt F (S.now as + dwell 0)) = x ∧
      HeldAt S F (S.now (as ++ [.call .uart1Rx dwell])) ∧ ∃ new,
      S.delivered F (S.now (as ++ [.call .uart1Rx dwell])) = S.delivered F (S.now as) ++ new ∧
      S.unread F (S.now (as ++ [.call .uart1Rx dwell])) = q ++ new := by
  set a : Act := .call .uart1Rx dwell with ha
  have hrdAt : a.rdAt = some (dwell 0 + 1) := rfl
  have hin : dwell 0 + 1 < a.clocks (after S.regs as) :=
    (a.drives (control_after as (control_regs S))).rdIn _ hrdAt
  obtain ⟨m, hm⟩ := Nat.exists_eq_add_of_lt hin
  have hend := now_mono (S := S) hF
  have hlow : ∀ k < a.clocks (after S.regs as), k ≠ dwell 0 + 1 →
      EdgeTrigger.pulse (fun u => (S.inp F u).rdUart) (S.now as + k) = false := by
    intro k hk hne
    rw [rdPulse hF hk, hrdAt]
    simpa using fun h => hne h.symm
  rw [now_snoc, hm] at hend ⊢
  -- the poll, up to the clock at which the word is read
  obtain ⟨hpoll, new₀, -, hq₀⟩ := Held.rest (n := dwell 0) h.held
    (fun k hk => hlow k (by omega) (by omega)) fun k hk => hroom _ (by omega)
  have hq₀' : S.unread F (S.now as + dwell 0) = x :: (q ++ new₀) := by
    rw [Site.unread, hq₀, ← Site.unread, hx]
    rfl
  have hhead : Rtl.Uart.rData (S.uartAt F (S.now as + dwell 0)) = x := by
    have hholds : Fifo.Holds (S.uartAt F (S.now as + dwell 0)).fifoRxUnit (x :: (q ++ new₀)) :=
      hq₀' ▸ hpoll
    exact hholds.rData_eq
  -- up to the clock of the pulse
  obtain ⟨hheld, new₁, hdel₁, hq₁⟩ := Held.rest (n := dwell 0 + 1) h.held
    (fun k hk => hlow k (by omega) (by omega)) fun k hk => hroom _ (by omega)
  have hq₁' : S.unread F (S.now as + (dwell 0 + 1)) = x :: (q ++ new₁) := by
    rw [Site.unread, hq₁, ← Site.unread, hx]
    rfl
  have hpulse :
      EdgeTrigger.pulse (fun u => (S.inp F u).rdUart) (S.now as + (dwell 0 + 1)) = true := by
    rw [rdPulse hF hin, hrdAt]
    simp
  obtain ⟨htaken, new₂, hdel₂, hq₂⟩ := Held.take hheld hq₁' hpulse (hroom _ (by omega))
  -- and the rest of the call
  obtain ⟨hlast, new₃, hdel₃, hq₃⟩ := Held.rest (n := m) htaken
    (fun k hk => by
      rw [Nat.add_assoc, Nat.add_assoc]
      exact hlow _ (by omega) (by omega))
    fun k hk => hroom _ (by omega)
  have hsum : S.now as + (dwell 0 + 1 + m + 1) = S.now as + (dwell 0 + 1) + 1 + m := by omega
  rw [hsum]
  refine ⟨hhead, ⟨hlast, fun u hu hp => ?_⟩, new₁ ++ new₂ ++ new₃, ?_, ?_⟩
  · rcases Nat.lt_or_ge u (S.now as) with hlt | hge
    · exact h.ready u hlt hp
    · obtain ⟨k, rfl⟩ := Nat.exists_eq_add_of_le hge
      by_cases hk : k = dwell 0 + 1
      · -- the one pulse of the call
        have hne : S.unread F (S.now as + k) ≠ [] := by
          rw [hk, hq₁']
          simp
        rw [Bool.eq_false_iff]
        intro he
        rw [← hk] at hheld
        exact hne (hheld.empty_iff.mp he)
      · rw [hlow k (by omega) hk] at hp
        cases hp
  · unfold Site.delivered
    rw [hdel₃, hdel₂, hdel₁]
    simp only [List.append_assoc]
  · unfold Site.unread
    rw [hq₃, hq₂]
    simp only [List.append_assoc]

/-! ### Boards and ports -/

/-- The polls are the ones recorded. -/
def Agree (env : ℕ → Poll) (polls : List Poll) : Prop :=
  ∀ (i : ℕ) (h : i < polls.length), env i = polls[i]

lemma Agree.mono {env : ℕ → Poll} {ps qs : List Poll} (h : Agree env qs) (hp : ps <+: qs) :
    Agree env ps := by
  intro i hi
  rw [h i (lt_of_lt_of_le hi hp.length_le), hp.getElem hi]

/-- **The relation of a board and a port**: the bytes of the port are those the status reads
have found and the calls have not taken; `pend` has been delivered since the last status read. -/
structure Sim (S : Site R W D) (F : List Act) (b : Board) (p : Port) (pend : List Byte) : Prop where
  uart : p.uart = b.uart
  now : p.now = b.polls.length
  held : HeldAt S F (S.now b.acts)
  delivered : S.delivered F (S.now b.acts) = arrivals b.polls ++ pend
  unread : S.unread F (S.now b.acts) = p.rx ++ pend

/-- What is done later is added at the end. -/
structure Grows (b b' : Board) : Prop where
  acts : b.acts <+: b'.acts
  polls : b.polls <+: b'.polls

lemma Grows.refl (b : Board) : Grows b b := ⟨List.prefix_rfl, List.prefix_rfl⟩

lemma Grows.trans {b b' b'' : Board} (h : Grows b b') (h' : Grows b' b'') : Grows b b'' :=
  ⟨h.acts.trans h'.acts, h.polls.trans h'.polls⟩

variable {env : ℕ → Poll} {b b' : Board} {p : Port} {pend : List Byte} {k : Pace}

lemma Board.grows_status (k : Pace) (b : Board) : Grows b (b.status S k) :=
  ⟨List.prefix_append _ _, List.prefix_append _ _⟩

lemma Board.grows_uart1Rx (k : Pace) (b : Board) : Grows b (b.uart1Rx S k).2 :=
  ⟨List.prefix_append _ _, List.prefix_rfl⟩

lemma Sim.acts {bs : List Act} (h : Sim S F b p pend) (hF : b.acts ++ bs <+: F)
    (hroom : Roomy S F) (hno : ∀ a ∈ bs, a.isRx = false) :
    ∃ pend', Sim S F { b with acts := b.acts ++ bs } p pend' := by
  induction bs using List.reverseRecOn with
  | nil => exact ⟨pend, by simpa using h⟩
  | append_singleton bs a ih =>
    rw [← List.append_assoc] at hF
    obtain ⟨pend', h'⟩ :=
      ih ((List.prefix_append _ _).trans hF) fun x hx => hno x (List.mem_append_left _ hx)
    have hrd : a.rdAt = none := by
      have hrx := hno a (by simp)
      cases a with
      | wait n => rfl
      | call c dwell =>
        cases c with
        | uart1Rx => simp [Act.isRx] at hrx
        | uart1Tx data => rfl
    obtain ⟨hheld, new, hdel, hun⟩ := HeldAt.act h'.held hF hroom hrd
    refine ⟨pend' ++ new, h'.uart, h'.now, ?_, ?_, ?_⟩
    · simpa using hheld
    · simpa [h'.delivered] using hdel
    · simpa [h'.unread] using hun

lemma Sim.status (h : Sim S F b p pend) (hF : (b.status S k).acts <+: F) (hroom : Roomy S F)
    (hag : Agree env (b.status S k).polls) :
    Sim S F (b.status S k) (p.status env) [] ∧ (env p.now).ticks = k.ticks := by
  obtain ⟨hheld, new, hdel, hun⟩ := HeldAt.act h.held hF hroom rfl
  have hpoll : env p.now = ⟨pend ++ new, k.ticks⟩ := by
    have hlast := hag p.now (by simp [Board.status, h.now])
    rw [hlast]
    simp only [Board.status, h.now, List.getElem_concat_length]
    have hsame : S.delivered (b.acts ++ [.wait k.gap]) (S.now (b.acts ++ [.wait k.gap])) =
        S.delivered F (S.now (b.acts ++ [.wait k.gap])) :=
      (delivered_initial hF (Nat.le_refl _)).symm
    rw [hsame, hdel, h.delivered, List.append_assoc, List.drop_left]
  refine ⟨⟨h.uart, ?_, hheld, ?_, ?_⟩, by rw [hpoll]⟩
  · simp [Port.status, Board.status, h.now]
  · have hrec : (b.status S k).polls = b.polls ++ [env p.now] := by
      have hlast := hag p.now (by simp [Board.status, h.now])
      rw [hlast]
      simp [Board.status, h.now]
    rw [hrec, hpoll, Board.status, hdel, h.delivered]
    simp [arrivals]
  · simp only [Port.status, Board.status]
    rw [hun, h.unread, hpoll]
    simp

/-- The status tells whether there is a byte. -/
lemma Sim.rxEmpty (h : Sim S F b p []) (hF : b.acts <+: F) : b.rxEmpty S = true ↔ p.rx = [] := by
  have hholds : Fifo.Holds (S.uartAt F (S.now b.acts)).fifoRxUnit p.rx := by
    have hun := h.unread
    rw [List.append_nil] at hun
    exact hun ▸ h.held.held
  rw [Board.rxEmpty, ← uartAt_initial hF (Nat.le_refl _)]
  exact hholds.empty_iff

lemma Sim.uart1Rx {x : Byte} {rx : List Byte} (h : Sim S F b p []) (hrx : p.rx = x :: rx)
    (hF : (b.uart1Rx S k).2.acts <+: F) (hroom : Roomy S F) :
    (b.uart1Rx S k).1 = x ∧ ∃ pend', Sim S F (b.uart1Rx S k).2 { p with rx := rx } pend' := by
  have hun := h.unread
  rw [List.append_nil, hrx] at hun
  obtain ⟨hhead, hheld, new, hdel, hun'⟩ := HeldAt.uart1Rx h.held hF hroom hun
  refine ⟨?_, new, h.uart, h.now, hheld, ?_, hun'⟩
  · have hin : k.dwell 0 + 1 < (Act.call .uart1Rx k.dwell).clocks (after S.regs b.acts) :=
      ((Act.call .uart1Rx k.dwell).drives (control_after b.acts (control_regs S))).rdIn _ rfl
    have hle : S.now b.acts + k.dwell 0 ≤ S.now (b.acts ++ [.call .uart1Rx k.dwell]) := by
      rw [now_snoc]
      omega
    rw [← hhead, uartAt_initial hF hle]
    rfl
  · rw [Board.uart1Rx, hdel, h.delivered, List.append_nil]

/-! ### One round -/

variable {pace : ℕ → Pace} {sync : Bool} {bufsz : ℕ} {rc : ℤ}

/-- The board a round leaves. -/
def left : Reply ⊕ (ℤ × Board) → Board
  | .inl r => r.board
  | .inr q => q.2

lemma readRound_eol (h : b.uart.eol = true) : readRound S pace sync bufsz rc b =
    .inl ⟨b.uart.rxBuf.length,
      if 0 < b.uart.rxBuf.length then some (copyLine bufsz b.uart.rxBuf) else none,
      { b with uart := { b.uart with eol := false, rxBuf := [] } }⟩ := by
  simp [readRound, h]

section
variable (heol : b.uart.eol = false) (hk : pace b.polls.length = k)
include heol hk

lemma readRound_empty (he : (b.status S k).rxEmpty S = true) :
    readRound S pace sync bufsz rc b =
      if b.uart.uartRxTimeout < k.ticks then .inl ⟨Uart.uartErrorTimeout, none, b.status S k⟩
      else if sync = false then .inl ⟨rc, none, b.status S k⟩
      else .inr (rc, b.status S k) := by
  cases sync <;> simp [readRound, heol, hk, he]

lemma readRound_full (he : (b.status S k).rxEmpty S = false)
    (hfull : b.uart.rxBuf.length = uartRxBufsz) : readRound S pace sync bufsz rc b =
      .inr (rc, { b.status S k with uart := { b.uart with eol := true } }) := by
  simp [readRound, heol, hk, he, hfull]

lemma readRound_byte (he : (b.status S k).rxEmpty S = false)
    (hfull : b.uart.rxBuf.length ≠ uartRxBufsz) : readRound S pace sync bufsz rc b =
      .inr (if ((b.status S k).uart1Rx S k).1 = b.uart.uartEol then rc else Uart.uartErrorRxBusy,
        { ((b.status S k).uart1Rx S k).2 with
          uart := { b.uart with
            rxBuf := b.uart.rxBuf ++ [((b.status S k).uart1Rx S k).1]
            eol := decide (((b.status S k).uart1Rx S k).1 = b.uart.uartEol) } }) := by
  simp [readRound, heol, hk, he, hfull]

lemma readRound_status : Grows (b.status S k) (left (readRound S pace sync bufsz rc b)) := by
  cases he : (b.status S k).rxEmpty S with
  | true =>
    rw [readRound_empty heol hk he]
    split_ifs
    · exact .refl _
    · exact .refl _
    · exact .refl _
  | false =>
    by_cases hfull : b.uart.rxBuf.length = uartRxBufsz
    · rw [readRound_full heol hk he hfull]
      exact ⟨List.prefix_rfl, List.prefix_rfl⟩
    · rw [readRound_byte heol hk he hfull]
      have hrx := Board.grows_uart1Rx (S := S) k (b.status S k)
      exact ⟨hrx.acts, hrx.polls⟩

end

lemma readRound_grows (S : Site R W D) (pace : ℕ → Pace) (sync : Bool) (bufsz : ℕ) (rc : ℤ)
    (b : Board) : Grows b (left (readRound S pace sync bufsz rc b)) := by
  cases heol : b.uart.eol with
  | true =>
    rw [readRound_eol heol]
    exact ⟨List.prefix_rfl, List.prefix_rfl⟩
  | false => exact (Board.grows_status _ b).trans (readRound_status heol rfl)

lemma readRound_next {rc' : ℤ} {b' : Board} (hlen : b.uart.rxBuf.length ≤ uartRxBufsz)
    (hr : readRound S pace sync bufsz rc b = .inr (rc', b')) :
    b'.uart.rxBuf.length ≤ uartRxBufsz ∧
      (sync = true ∨ roundsLeft b'.uart < roundsLeft b.uart) := by
  cases heol : b.uart.eol with
  | true =>
    rw [readRound_eol heol] at hr
    cases hr
  | false =>
    obtain ⟨k, hk⟩ : ∃ k, pace b.polls.length = k := ⟨_, rfl⟩
    cases he : (b.status S k).rxEmpty S with
    | true =>
      rw [readRound_empty heol hk he] at hr
      split_ifs at hr with htime hsync
      cases hr
      exact ⟨hlen, .inl (by simpa using hsync)⟩
    | false =>
      by_cases hfull : b.uart.rxBuf.length = uartRxBufsz
      · rw [readRound_full heol hk he hfull] at hr
        cases hr
        exact ⟨hlen, .inr (roundsLeft_of_full heol)⟩
      · have hroom := lt_of_le_of_ne hlen hfull
        rw [readRound_byte heol hk he hfull] at hr
        cases hr
        exact ⟨by simpa using Nat.succ_le_of_lt hroom, .inr (roundsLeft_of_byte heol hroom _ _)⟩

/-- Between two calls no line is pending. -/
structure Board.Quiet (b : Board) : Prop where
  eol : b.uart.eol = false
  room : b.uart.rxBuf.length ≤ uartRxBufsz

lemma readRound_quiet {r : Reply} (hlen : b.uart.rxBuf.length ≤ uartRxBufsz)
    (hr : readRound S pace sync bufsz rc b = .inl r) : r.board.Quiet := by
  cases heol : b.uart.eol with
  | true =>
    rw [readRound_eol heol] at hr
    cases hr
    exact ⟨rfl, Nat.zero_le _⟩
  | false =>
    obtain ⟨k, hk⟩ : ∃ k, pace b.polls.length = k := ⟨_, rfl⟩
    cases he : (b.status S k).rxEmpty S with
    | true =>
      rw [readRound_empty heol hk he] at hr
      split_ifs at hr
      · cases hr
        exact ⟨heol, hlen⟩
      · cases hr
        exact ⟨heol, hlen⟩
    | false =>
      by_cases hfull : b.uart.rxBuf.length = uartRxBufsz
      · rw [readRound_full heol hk he hfull] at hr
        cases hr
      · rw [readRound_byte heol hk he hfull] at hr
        cases hr

/-- The same round on the port. -/
inductive Follows (S : Site R W D) (F : List Act) :
    Reply ⊕ (ℤ × Board) → Result ⊕ (ℤ × Port) → Prop
  | inl {r : Reply} {p : Port} {pend : List Byte} (h : Sim S F r.board p pend) :
    Follows S F (.inl r) (.inl ⟨r.rc, r.str, p⟩)
  | inr {rc : ℤ} {b : Board} {p : Port} {pend : List Byte} (h : Sim S F b p pend) :
    Follows S F (.inr (rc, b)) (.inr (rc, p))

/-- **One round of the loop.** -/
lemma Sim.round (h : Sim S F b p pend) (hroom : Roomy S F)
    (hF : (left (readRound S pace sync bufsz rc b)).acts <+: F)
    (hag : Agree env (left (readRound S pace sync bufsz rc b)).polls) :
    Follows S F (readRound S pace sync bufsz rc b) (Line.readRound env sync bufsz rc p) := by
  cases heol : b.uart.eol with
  | true =>
    rw [readRound_eol heol]
    simp only [Line.readRound, heol, h.uart, if_true]
    exact .inl ⟨rfl, h.now, h.held, h.delivered, h.unread⟩
  | false =>
    obtain ⟨k, hk⟩ : ∃ k, pace b.polls.length = k := ⟨_, rfl⟩
    have hstatus : Grows (b.status S k) (left (readRound S pace sync bufsz rc b)) :=
      readRound_status heol hk
    obtain ⟨hs, hticks⟩ := h.status (hstatus.acts.trans hF) hroom (hag.mono hstatus.polls)
    have hempty := hs.rxEmpty (hstatus.acts.trans hF)
    have hpeol : p.uart.eol = false := by rw [h.uart, heol]
    cases hrx : (p.status env).rx with
    | nil =>
      rw [readRound_empty heol hk (hempty.mpr hrx), Line.readRound_empty hpeol hrx, hticks, h.uart]
      split_ifs
      · exact .inl hs
      · exact .inl hs
      · exact .inr hs
    | cons x rx =>
      have he : (b.status S k).rxEmpty S = false := by
        rw [Bool.eq_false_iff, Ne, hempty, hrx]
        simp
      by_cases hfull : b.uart.rxBuf.length = uartRxBufsz
      · rw [readRound_full heol hk he hfull,
          Line.readRound_full hpeol hrx (by rw [h.uart, hfull]), h.uart]
        exact .inr ⟨rfl, hs.now, hs.held, hs.delivered, hs.unread⟩
      · rw [readRound_byte heol hk he hfull] at hF
        obtain ⟨hx, pend', hs'⟩ := hs.uart1Rx hrx hF hroom
        rw [readRound_byte heol hk he hfull,
          Line.readRound_byte hpeol hrx (by rw [h.uart]; exact hfull), hx, h.uart]
        exact .inr ⟨rfl, hs'.now, hs'.held, hs'.delivered, hs'.unread⟩

/-! ### Calls -/

/-- The rule for what every round keeps. -/
lemma readLoop_inv {P : Board → Prop} {n : ℕ} {r : Reply}
    (hround : ∀ rc b, P b → P (left (readRound S pace sync bufsz rc b))) (hb : P b)
    (h : readLoop S pace sync bufsz n rc b = some r) : P r.board := by
  induction n generalizing rc b with
  | zero => cases h
  | succ n ih =>
    have hnext := hround rc b hb
    simp only [readLoop] at h
    cases hr : readRound S pace sync bufsz rc b with
    | inl r' =>
      rw [hr] at h hnext
      cases h
      exact hnext
    | inr q =>
      rw [hr] at h hnext
      exact ih hnext h

lemma readLoop_grows {n : ℕ} {r : Reply} (h : readLoop S pace sync bufsz n rc b = some r) :
    Grows b r.board :=
  readLoop_inv (fun rc b' hb => hb.trans (readRound_grows S pace sync bufsz rc b')) (.refl b) h

lemma readLoop_quiet {n : ℕ} {r : Reply} (hlen : b.uart.rxBuf.length ≤ uartRxBufsz)
    (h : readLoop S pace sync bufsz n rc b = some r) : r.board.Quiet := by
  induction n generalizing rc b with
  | zero => cases h
  | succ n ih =>
    simp only [readLoop] at h
    cases hr : readRound S pace sync bufsz rc b with
    | inl r' =>
      rw [hr] at h
      cases h
      exact readRound_quiet hlen hr
    | inr q =>
      rw [hr] at h
      exact ih (readRound_next hlen hr).1 h

lemma readLoop_isSome {n : ℕ} (hlen : b.uart.rxBuf.length ≤ uartRxBufsz)
    (hn : roundsLeft b.uart ≤ n) : (readLoop S pace false bufsz n rc b).isSome = true := by
  induction n generalizing rc b with
  | zero =>
    have := roundsLeft_pos b.uart
    omega
  | succ n ih =>
    simp only [readLoop]
    cases hr : readRound S pace false bufsz rc b with
    | inl r => rfl
    | inr q =>
      obtain ⟨hlen', hsync | hless⟩ := readRound_next hlen hr
      · cases hsync
      · exact ih hlen' (by omega)

/-- **A call with `UART_FLAG_NONE` returns**, whatever the line shows. -/
theorem uartReadline_isSome (h : b.Quiet) :
    (uartReadline S pace false bufsz lineFuel b).isSome = true := by
  refine readLoop_isSome h.room ?_
  simp only [roundsLeft, h.eol, Bool.false_eq_true, if_false, lineFuel]
  omega

/-- **A call of `uart_readline`** returns on the port what it returns on the board. -/
lemma Sim.readLoop {n : ℕ} {r : Reply} (h : Sim S F b p pend) (hroom : Roomy S F)
    (hr : readLoop S pace sync bufsz n rc b = some r) (hF : r.board.acts <+: F)
    (hag : Agree env r.board.polls) :
    ∃ p' pend', Line.readLoop env sync bufsz n rc p = some ⟨r.rc, r.str, p'⟩ ∧
      Sim S F r.board p' pend' := by
  induction n generalizing rc b p pend with
  | zero => cases hr
  | succ n ih =>
    simp only [PortReadline.readLoop] at hr
    have hgrows : Grows (left (readRound S pace sync bufsz rc b)) r.board := by
      cases hq : readRound S pace sync bufsz rc b with
      | inl r' =>
        rw [hq] at hr
        cases hr
        exact .refl _
      | inr q =>
        rw [hq] at hr
        exact readLoop_grows hr
    have hround := h.round hroom (hgrows.acts.trans hF) (hag.mono hgrows.polls)
    rw [Line.readLoop]
    cases hq : readRound S pace sync bufsz rc b with
    | inl r' =>
      rw [hq] at hr hround
      cases hr
      generalize Line.readRound env sync bufsz rc p = l at hround
      cases hround with
      | inl hs => exact ⟨_, _, rfl, hs⟩
    | inr q =>
      rw [hq] at hr hround
      generalize Line.readRound env sync bufsz rc p = l at hround
      cases hround with
      | inr hs => exact ih hs hr

lemma readlines_grows {vs : List Visit} {rs : List (LineAssembly.Call × Reply)}
    (h : readlines S pace vs b = some (rs, b')) : Grows b b' := by
  induction vs generalizing b rs with
  | nil =>
    cases h
    exact .refl _
  | cons v vs ih =>
    simp only [readlines, Option.bind_eq_bind, Option.bind_eq_some_iff] at h
    obtain ⟨r, hcall, ⟨rs', b₁⟩, hrest, hrs⟩ := h
    cases hrs
    have hvisit : Grows b (v.arrive b) := ⟨List.prefix_append _ _, List.prefix_rfl⟩
    exact hvisit.trans ((readLoop_grows hcall).trans (ih hrest))

/-- **Any calls.** -/
lemma Sim.readlines {vs : List Visit} {rs : List (LineAssembly.Call × Reply)}
    (h : Sim S F b p pend) (hroom : Roomy S F) (hr : readlines S pace vs b = some (rs, b'))
    (hF : b'.acts <+: F) (hag : Agree env b'.polls) :
    ∃ ts p' pend', LineAssembly.readlines env (vs.map Visit.call) p = some (ts, p') ∧
      rs.map (fun q => (q.1, q.2.rc, q.2.str)) =
        ts.map (fun t => (t.call, t.result.rc, t.result.str)) ∧ Sim S F b' p' pend' := by
  induction vs generalizing b p pend rs with
  | nil =>
    cases hr
    exact ⟨[], p, pend, rfl, rfl, h⟩
  | cons v vs ih =>
    simp only [PortReadline.readlines, Option.bind_eq_bind, Option.bind_eq_some_iff] at hr
    obtain ⟨r, hcall, ⟨rs', b₁⟩, hrest, hrs⟩ := hr
    cases hrs
    have hlater := readlines_grows hrest
    have hcallgrows := readLoop_grows hcall
    have hvisit : (v.arrive b).acts <+: F := hcallgrows.acts.trans (hlater.acts.trans hF)
    obtain ⟨pend₁, hs⟩ := h.acts hvisit hroom v.noRx
    have hs₁ : Sim S F (v.arrive b) (withTimeout p v.call.uartRxTimeout) pend₁ :=
      ⟨by simp [withTimeout, Visit.arrive, h.uart], hs.now, hs.held, hs.delivered, hs.unread⟩
    obtain ⟨p₁, pend₂, hline, hs₂⟩ :=
      hs₁.readLoop hroom hcall (hlater.acts.trans hF) (hag.mono hlater.polls)
    obtain ⟨ts, p', pend', hlines, hsame, hs'⟩ := ih hs₂ hrest
    refine ⟨⟨v.call, withTimeout p v.call.uartRxTimeout, ⟨r.rc, r.str, p₁⟩⟩ :: ts, p', pend',
      ?_, ?_, hs'⟩
    · simp only [List.map_cons, LineAssembly.readlines, Option.bind_eq_bind,
        Option.bind_eq_some_iff]
      exact ⟨_, hline, (ts, p'), hlines, rfl⟩
    · rw [List.map_cons, List.map_cons, hsame]

/-! ### From reset on -/

/-- The polls recorded, and none after them. -/
def recorded (polls : List Poll) (n : ℕ) : Poll := polls.getD n ⟨[], 0⟩

lemma agree_recorded (polls : List Poll) : Agree (recorded polls) polls := by
  intro i hi
  simp [recorded, hi]

lemma received_recorded (polls : List Poll) (t : ℕ) :
    received (recorded polls) t = arrivals (polls.take t) := by
  induction t with
  | zero => rfl
  | succ t ih =>
    rw [received, collect_succ, ← received, ih, List.take_add_one, arrivals, arrivals,
      List.flatMap_append]
    congr 1
    rcases Nat.lt_or_ge t polls.length with ht | ht
    · simp [recorded, ht]
    · simp [recorded, ht]

/-- The board when nothing has been done. -/
def Board.opened (u : Uart.State) : Board := ⟨u, [], []⟩

lemma sim_opened (S : Site R W D) (F : List Act) (u : Uart.State) :
    Sim S F (.opened u) ⟨u, [], 0⟩ [] :=
  ⟨rfl, rfl, ⟨Fifo.holds_reset _, fun _ hu => absurd hu (Nat.not_lt_zero _)⟩, rfl, rfl⟩

/-- The call returns the line `l`: its length, and as much of its text as fits. -/
structure Returns (q : LineAssembly.Call × Reply) (l : List Byte) : Prop where
  rc : q.2.rc = l.length
  str : q.2.str = some (l.take (q.1.bufsz - 1) ++
    List.replicate (q.1.bufsz - (l.take (q.1.bufsz - 1)).length) 0)

def isLine (q : LineAssembly.Call × Reply) : Bool := 0 < q.2.rc

/-- What the calls return when the bytes the receiver delivers are cut at `eol`: the first
pieces, the rest being buffered or still in the receiver. -/
def Accounts (S : Site R W D) (eol : Byte) (rs : List (LineAssembly.Call × Reply)) (b : Board) :
    Prop :=
  ∃ ls, List.Forall₂ Returns (rs.filter isLine) ls ∧
    ls <+: pieces eol uartRxBufsz (S.delivered b.acts (S.now b.acts)) ∧
    ls.flatten ++ b.uart.rxBuf ++ S.unread b.acts (S.now b.acts) =
      S.delivered b.acts (S.now b.acts)

variable {rs : List (LineAssembly.Call × Reply)} {ts : List Turn} {ls : List (List Byte)}

/-- The lines of the turns are the lines of the calls. -/
lemma returns_of_turns (h : List.Forall₂ Turn.Returns (ts.filter Turn.isLine) ls)
    (hsame : rs.map (fun q => (q.1, q.2.rc, q.2.str)) =
      ts.map (fun t => (t.call, t.result.rc, t.result.str))) :
    List.Forall₂ Returns (rs.filter isLine) ls := by
  induction rs generalizing ts ls with
  | nil =>
    cases ts with
    | nil =>
      cases h
      exact .nil
    | cons t ts => simp at hsame
  | cons q rs ih =>
    cases ts with
    | nil => simp at hsame
    | cons t ts =>
      rw [List.map_cons, List.map_cons, List.cons.injEq, Prod.mk.injEq, Prod.mk.injEq] at hsame
      obtain ⟨⟨hcall, hrc, hstr⟩, hrest⟩ := hsame
      have hline : isLine q = t.isLine := by rw [isLine, Turn.isLine, hrc]
      cases ht : t.isLine with
      | true =>
        rw [List.filter_cons_of_pos ht] at h
        rw [List.filter_cons_of_pos (hline.trans ht)]
        cases h with
        | cons hret hall =>
          refine .cons ⟨hrc.trans hret.rc, ?_⟩ (ih hall hrest)
          rw [hstr, hret.str, hcall]
      | false =>
        rw [List.filter_cons_of_neg (by simp [ht])] at h
        rw [List.filter_cons_of_neg (by simp [hline, ht])]
        exact ih h hrest

lemma accounts_of_readlines {u₀ u : Uart.State} {dbit : Uart.UartDbit} {pbit : Uart.UartParity}
    {sbit : Uart.UartSbit} {baud : BitVec 32} {vs : List Visit}
    (hopen : Uart.uartOpen u₀ dbit sbit pbit baud = .ok (Uart.uartReady, u))
    (hr : readlines S pace vs (.opened u) = some (rs, b)) (hroom : Roomy S b.acts)
    (hnul : (0 : Byte) ∉ S.delivered b.acts (S.now b.acts)) :
    Accounts S u.uartEol rs b ∧ HeldAt S b.acts (S.now b.acts) := by
  obtain ⟨ts, p', pend, hlines, hsame, hs⟩ := (sim_opened S b.acts u).readlines hroom hr
    List.prefix_rfl (agree_recorded b.polls)
  have hfree : ∀ t, (0 : Byte) ∉ received (recorded b.polls) t := by
    intro t hmem
    rw [received_recorded] at hmem
    refine hnul ?_
    rw [hs.delivered]
    refine List.mem_append_left _ ?_
    rw [arrivals, List.mem_flatMap] at hmem ⊢
    obtain ⟨q, hq, hx⟩ := hmem
    exact ⟨q, List.mem_of_mem_take hq, hx⟩
  have hcut₀ : Cutting (recorded b.polls) u.uartEol [] ⟨u, [], 0⟩ :=
    cutting_opened (p := ⟨u, [], 0⟩) hopen rfl
  obtain ⟨ls, hall, hcut, -⟩ := hcut₀.run hfree hlines
  rw [List.nil_append] at hcut
  have hall' : received (recorded b.polls) p'.now = arrivals b.polls := by
    rw [received_recorded, hs.now, List.take_length]
  have hcuts := hcut.cuts.extend pend
  rw [hall', ← hs.delivered] at hcuts
  refine ⟨⟨ls, returns_of_turns hall hsame, hcuts.initial_pieces (by decide), ?_⟩, hs.held⟩
  rw [hs.unread, ← hs.uart, ← hcuts.flatten]
  simp only [List.append_assoc]

/-- **On the port, every byte is accounted for**: after `uart_open`, whatever line the receiver
sees and however long the calls of `uart_readline` and the pauses between them take, as long as
the receive buffer is not overrun, the lines returned are the first pieces of what the receiver
has delivered, what follows them stands in `uart_rx_buf` and the receive buffer, and that buffer
is never read while it is empty. -/
theorem lines_of_delivered {u₀ u : Uart.State} {dbit : Uart.UartDbit} {pbit : Uart.UartParity}
    {sbit : Uart.UartSbit} {baud : BitVec 32} {vs : List Visit}
    (hopen : Uart.uartOpen u₀ dbit sbit pbit baud = .ok (Uart.uartReady, u))
    (hr : readlines S pace vs (.opened u) = some (rs, b)) (hroom : Roomy S b.acts)
    (hnul : (0 : Byte) ∉ S.delivered b.acts (S.now b.acts)) :
    Accounts S u.uartEol rs b ∧ ∀ t < S.now b.acts,
      Rtl.Uart.rdUartTick (S.uartAt b.acts t) (S.inp b.acts t) = true →
        Rtl.Uart.rxEmpty (S.uartAt b.acts t) = false := by
  obtain ⟨hacc, hheld⟩ := accounts_of_readlines hopen hr hroom hnul
  refine ⟨hacc, fun t ht hp => hheld.ready t ht ?_⟩
  rw [← hp]
  exact (Rtl.Uart.rdUartTick_run t).symm

/-- A line that carries the byte `0x3e` once, two clocks a bit, least bit first. -/
def oneFrame (t : ℕ) : Bool :=
  if t < 4 then true else if t < 6 then false else if t < 22 then (0x3e : Byte).getLsbD ((t - 6) / 2)
  else true

/-- A port with two ticks a bit and a tick every clock. -/
def fastPort : Site 1 1 1 := ⟨⟨8, 0, 2, 2⟩, 0, ModMCounter.reset, Rtl.Uart.blank, oneFrame, 0⟩

/-- The variables after `uart_open`. -/
def openedState : Uart.State := ⟨0x3e, 30000, [], false, some ⟨8, 0, 16, 16, 27⟩⟩

/-- Eight clocks up to every status read. -/
def everyEight (_ : ℕ) : Pace := ⟨7, fun _ => 0, 0⟩

/-- A call that waits. -/
def waiting : LineAssembly.Call := ⟨true, 4, by decide, 30000, 6⟩

/-- The line is returned by the one call, after three status reads and two words of the port. -/
theorem lines_of_oneFrame : ∃ rs b,
    readlines fastPort everyEight [⟨[], by simp, waiting⟩] (.opened openedState) = some (rs, b) ∧
      rs.map (fun q => (q.2.rc, q.2.str)) = [(1, some [0x3e, 0, 0, 0])] ∧
      Accounts fastPort 0x3e rs b := by
  have hopen : Uart.uartOpen { Uart.initial with uartEol := 0x3e } Uart.uartDbit8 .one
      Uart.uartParityNone 115200 = .ok (Uart.uartReady, openedState) := rfl
  have hrun : (readlines fastPort everyEight [⟨[], by simp, waiting⟩] (.opened openedState)).map
      (fun q => (q.1.map fun r => (r.2.rc, r.2.str), decide (Roomy fastPort q.2.acts),
        fastPort.delivered q.2.acts (fastPort.now q.2.acts))) =
        some ([(1, some [0x3e, 0, 0, 0])], true, [0x3e]) := by decide
  obtain ⟨⟨rs, b⟩, hr, hq⟩ := Option.map_eq_some_iff.mp hrun
  simp only [Prod.mk.injEq, decide_eq_true_eq] at hq
  obtain ⟨hrs, hroom, hdel⟩ := hq
  exact ⟨rs, b, hr, hrs, (lines_of_delivered hopen hr hroom (by rw [hdel]; decide)).1⟩

end

end Blastit.Fw.PortReadline
