import Blastit.Fw.BoardLink
import Blastit.Fw.MainLoop

/-!
The OBD2 coroutine on the port itself.

`obd2_init` and `obd2_update` run with `uart_sendline` and `uart_readline` as acts on a `uart`
whose line shows anything. What the status reads find is recorded as polls, and with these
polls the coroutine of `obd2.c` does what it does here. What it sends is on the line.
-/

namespace Blastit.Fw.Obd2Port

open Blastit.Lib.Text Blastit.Lib.Calls Blastit.Lib.Clocked Blastit.Rtl Blastit.Rtl.UartFrame
  Blastit.Fw.UartCalls Blastit.Fw.PortActs Blastit.Fw.Line Blastit.Fw.PidParser Blastit.Fw.Obd2
open Blastit.Fw.PortReadline (Site Pace Board Sim Grows Agree Roomy)
open Blastit.Fw.Uart (Fault uartErrorTimeout)

/-! ### The coroutine -/

/-- How long the parts of `uart_sendline` take. -/
structure SendPace where
  poll : ℕ → ℕ
  dwell : ℕ → ℕ → ℕ
  rest : ℕ

/-- The port, the pace of the processor, what the uninitialised buffers of `obd2_update` hold, and
how many rounds a call that waits may take. -/
structure Host (R W D : ℕ) where
  site : Site R W D
  pace : ℕ → Pace
  sendPace : ℕ → SendPace
  junk : ℕ → List Byte
  fuel : ℕ

/-- The variables of `obd2.c` and `uart.c`, with what has been done with the port. -/
structure State where
  board : Board
  obd2State : Obd2State
  data : Data
  baCount : BitVec 16
  trace : List Event

namespace State

/-- The variables of `obd2.c`, with the port as the coroutine on polls sees it. -/
def on (s : State) (p : Port) : Obd2.State := ⟨p, s.obd2State, s.data, s.baCount, s.trace⟩

def did (s : State) (bs : List Act) (es : List Event) : State :=
  { s with board.acts := s.board.acts ++ bs, trace := s.trace ++ es }

def withVars (s : State) (v : Obd2.State) : State :=
  { s with obd2State := v.obd2State, data := v.data, baCount := v.baCount, trace := v.trace }

end State

section
variable {R W D : ℕ} (H : Host R W D)

/-- The wait of `UART_FLAG_SYNC`. -/
def waitEmpty (poll : ℕ → ℕ) : ℕ → List Act → Except Fault (List Act)
  | 0, _ => .error .waiting
  | n + 1, as =>
    let as := as ++ [.wait (poll n)]
    if Rtl.Uart.txEmpty (H.site.uartAt as (H.site.now as)) then .ok as else waitEmpty poll n as

def uartSendline (sync : Bool) (str : List Byte) (s : State) : Except Fault (ℤ × State) := do
  let k := H.sendPace s.board.acts.length
  let waited := if sync then waitEmpty H k.poll H.fuel s.board.acts else .ok s.board.acts
  let as ← waited
  let as := as ++ (Sendline.txActs k.dwell 0 (cstr str) ++ [.wait k.rest])
  return ((cstr str).length, { s with board.acts := as, trace := s.trace ++ [.sendline str] })

def readline (sync : Bool) (bufsz fuel : ℕ) (s : State) :
    Except Fault (ℤ × Option (List Byte) × State) :=
  match PortReadline.uartReadline H.site H.pace sync bufsz fuel s.board with
  | none => .error .waiting
  | some r => .ok (r.rc, r.str, { s with
      board := r.board
      trace := if r.rc = uartErrorTimeout then s.trace ++ [.timeout] else s.trace })

def obd2StateEntry (s : State) : Except Fault State :=
  let s := { s with trace := s.trace ++ [Event.entry s.obd2State] }
  match requestOf s.obd2State with
  | some str => do
    let (error, s) ← uartSendline H false str s
    return if error < 0 then { s with obd2State := .reset } else s
  | none => .ok s

/-- `obd2_state_exit`, which does not look at the port. -/
def obd2StateExit (response : List Byte) (s : State) : Except Fault State := do
  let v ← Obd2.obd2StateExit response (s.on ⟨s.board.uart, [], 0⟩)
  return s.withVars v

def obd2AtCommand (command : List Byte) (s : State) : Except Fault (Bool × State) := do
  let (error, s) ← uartSendline H true command s
  if error < 0 then return (false, s)
  else
    let (error, str, s) ← readline H true obd2AtMaxN H.fuel s
    return (decide (0 ≤ error) && obd2ParseAtResponse (cstr (str.getD [])), s)

def sendAll (cmds : List (List Byte)) (s : State) : Except Fault State :=
  cmds.foldlM (fun s c => Prod.snd <$> obd2AtCommand H c s) s

def obd2Clear (s : State) : State :=
  { s with
    obd2State := .reset
    data.pids := noPids
    data.boostRef := 0
    baCount := 0
    board.uart.uartEol := 0x3e }

def obd2Init (s : State) : Except Fault State := do
  let s ← sendAll H atCommands (obd2Clear s)
  obd2StateEntry H { s with obd2State := .cilbr }

def obd2Update (junk : List Byte) (s : State) : Except Fault (Bool × State) := do
  let (error, str, s) ← readline H false obd2PidMaxN lineFuel s
  if 0 ≤ error then
    let s ← obd2StateExit (str.getD junk) s
    let s ← obd2StateEntry H s
    return (decide (s.obd2State ≠ .reset), s)
  else return (false, s)

def run (s : State) : ℕ → Except Fault State
  | 0 => .ok s
  | n + 1 => do
    let s ← run s n
    let (_, s) ← obd2Update H (H.junk n) s
    return s

/-- What `obd2_init` finds after `uart_open`. -/
def atStart : State where
  board := .opened opened
  obd2State := .reset
  data := ⟨noPids, 0, ⟨0, 0, 0, 0, 0, 0⟩⟩
  baCount := 0
  trace := []

end

/-! ### What is done with the port -/

section
variable {R W D : ℕ} {H : Host R W D} {F : List Act} {env : ℕ → Poll} {s s' : State}
  {v : Obd2.State} {sync : Bool} {str command response junk : List Byte} {bufsz fuel n : ℕ}
  {b : Bool} {e : ℤ}

lemma waitEmpty_waits {poll : ℕ → ℕ} {as as' : List Act}
    (h : waitEmpty H poll n as = .ok as') : ∃ bs, as' = as ++ bs ∧ ∀ a ∈ bs, ∃ k, a = .wait k := by
  induction n generalizing as with
  | zero => cases h
  | succ n ih =>
    simp only [waitEmpty] at h
    split at h
    · cases h
      exact ⟨[.wait (poll n)], rfl, by simp⟩
    · obtain ⟨bs, rfl, hbs⟩ := ih h
      refine ⟨.wait (poll n) :: bs, by simp, fun a ha => ?_⟩
      rcases List.mem_cons.mp ha with rfl | ha
      · exact ⟨_, rfl⟩
      · exact hbs a ha

/-- The acts of a call of `uart_sendline`: none reads, and they hand over its text. -/
structure Sends (str : List Byte) (bs : List Act) : Prop where
  noRx : ∀ a ∈ bs, a.isRx = false
  data : bs.filterMap Act.data = cstr str

lemma isRx_txActs {dwell : ℕ → ℕ → ℕ} {i : ℕ} {a : Act} (h : a ∈ Sendline.txActs dwell i str) :
    a.isRx = false := by
  induction str generalizing i with
  | nil => cases h
  | cons c str ih =>
    rcases List.mem_cons.mp h with rfl | h
    · rfl
    · exact ih h

/-- **`uart_sendline`** sends its text, and touches nothing but the trace. -/
lemma uartSendline_ok (h : uartSendline H sync str s = .ok (e, s')) :
    0 ≤ e ∧ ∃ bs, Sends str bs ∧ s' = s.did bs [.sendline str] := by
  unfold uartSendline at h
  obtain ⟨as, hwait, hs⟩ := bind_eq_ok.mp h
  cases hs
  refine ⟨Int.natCast_nonneg _, ?_⟩
  set k := H.sendPace s.board.acts.length
  set cs := Sendline.txActs k.dwell 0 (cstr str) ++ [Act.wait k.rest] with hcs
  have htx : ∀ a ∈ cs, a.isRx = false := by
    intro a ha
    rcases List.mem_append.mp ha with ha | ha
    · exact isRx_txActs ha
    · obtain rfl := List.mem_singleton.mp ha
      rfl
  have hdata : cs.filterMap Act.data = cstr str := by
    rw [hcs, List.filterMap_append, Sendline.data_txActs, List.filterMap_cons_none rfl,
      List.filterMap_nil, List.append_nil]
  split at hwait
  · obtain ⟨bs, rfl, hbs⟩ := waitEmpty_waits hwait
    refine ⟨bs ++ cs, ⟨fun a ha => ?_, ?_⟩, by simp only [State.did, List.append_assoc]⟩
    · rcases List.mem_append.mp ha with ha | ha
      · obtain ⟨k, rfl⟩ := hbs a ha
        rfl
      · exact htx a ha
    · have hnone : bs.filterMap Act.data = [] := by
        rw [List.filterMap_eq_nil_iff]
        intro a ha
        obtain ⟨k, rfl⟩ := hbs a ha
        rfl
      rw [List.filterMap_append, hnone, List.nil_append, hdata]
  · cases hwait
    exact ⟨cs, ⟨htx, hdata⟩, rfl⟩

lemma readline_ok {rc : ℤ} {res : Option (List Byte)}
    (h : readline H sync bufsz fuel s = .ok (rc, res, s')) :
    ∃ board, PortReadline.uartReadline H.site H.pace sync bufsz fuel s.board =
        some ⟨rc, res, board⟩ ∧
      s' = { s with
        board := board
        trace := if rc = uartErrorTimeout then s.trace ++ [.timeout] else s.trace } := by
  unfold readline at h
  cases hr : PortReadline.uartReadline H.site H.pace sync bufsz fuel s.board with
  | none => simp [hr] at h
  | some r =>
    simp only [hr, Except.ok.injEq, Prod.mk.injEq] at h
    obtain ⟨rfl, rfl, rfl⟩ := h
    exact ⟨r.board, rfl, rfl⟩

lemma obd2StateEntry_ok (h : obd2StateEntry H s = .ok s') :
    ∃ bs, Sends ((requestOf s.obd2State).getD []) bs ∧
      s' = s.did bs (.entry s.obd2State :: sent s.obd2State) := by
  unfold obd2StateEntry at h
  cases hreq : requestOf s.obd2State with
  | none =>
    simp only [hreq, Except.ok.injEq] at h
    refine ⟨[], ⟨by simp, rfl⟩, ?_⟩
    rw [← h]
    simp [State.did, sent, hreq]
  | some str =>
    simp only [hreq] at h
    obtain ⟨⟨e, s₁⟩, hsend, hs⟩ := bind_eq_ok.mp h
    obtain ⟨he, bs, hbs, rfl⟩ := uartSendline_ok hsend
    simp only [pure, Except.pure, Except.ok.injEq] at hs
    rw [if_neg (by omega)] at hs
    refine ⟨bs, hbs, ?_⟩
    rw [← hs]
    simp [State.did, sent, hreq]

lemma obd2AtCommand_ok (h : obd2AtCommand H command s = .ok (b, s')) :
    ∃ bs rc res, Sends command bs ∧
      readline H true obd2AtMaxN H.fuel (s.did bs [.sendline command]) = .ok (rc, res, s') ∧
      b = (decide (0 ≤ rc) && obd2ParseAtResponse (cstr (res.getD []))) := by
  unfold obd2AtCommand at h
  obtain ⟨⟨e, s₁⟩, hsend, hs⟩ := bind_eq_ok.mp h
  obtain ⟨he, bs, hbs, rfl⟩ := uartSendline_ok hsend
  dsimp only at hs
  rw [if_neg (by omega)] at hs
  obtain ⟨⟨rc, res, s₂⟩, hread, hret⟩ := bind_eq_ok.mp hs
  cases hret
  exact ⟨bs, rc, res, hbs, hread, rfl⟩

/-! ### The port later -/

lemma grows_did (s : State) (bs : List Act) (es : List Event) : Grows s.board (s.did bs es).board :=
  ⟨List.prefix_append _ _, List.prefix_rfl⟩

lemma grows_readline {rc : ℤ} {res : Option (List Byte)}
    (h : readline H sync bufsz fuel s = .ok (rc, res, s')) : Grows s.board s'.board := by
  obtain ⟨board, hr, rfl⟩ := readline_ok h
  exact PortReadline.readLoop_grows hr

lemma board_obd2StateExit (h : obd2StateExit response s = .ok s') : s'.board = s.board := by
  obtain ⟨v, -, hs⟩ := bind_eq_ok.mp h
  cases hs
  rfl

lemma grows_obd2StateEntry (h : obd2StateEntry H s = .ok s') : Grows s.board s'.board := by
  obtain ⟨bs, -, rfl⟩ := obd2StateEntry_ok h
  exact grows_did s bs _

lemma grows_obd2AtCommand (h : obd2AtCommand H command s = .ok (b, s')) :
    Grows s.board s'.board := by
  obtain ⟨bs, rc, res, -, hread, -⟩ := obd2AtCommand_ok h
  exact (grows_did s bs _).trans (grows_readline hread)

lemma obd2Update_ok (h : obd2Update H junk s = .ok (b, s')) :
    ∃ rc res s₁, readline H false obd2PidMaxN lineFuel s = .ok (rc, res, s₁) ∧
      (0 ≤ rc ∧ (∃ s₂, obd2StateExit (res.getD junk) s₁ = .ok s₂ ∧
          obd2StateEntry H s₂ = .ok s' ∧ b = decide (s'.obd2State ≠ .reset)) ∨
        ¬ 0 ≤ rc ∧ b = false ∧ s' = s₁) := by
  unfold obd2Update at h
  obtain ⟨⟨rc, res, s₁⟩, hread, hrest⟩ := bind_eq_ok.mp h
  refine ⟨rc, res, s₁, hread, ?_⟩
  dsimp only at hrest
  split_ifs at hrest with hrc
  · obtain ⟨s₂, hexit, hrest⟩ := bind_eq_ok.mp hrest
    obtain ⟨s₃, hentry, hrest⟩ := bind_eq_ok.mp hrest
    cases hrest
    exact .inl ⟨hrc, s₂, hexit, hentry, rfl⟩
  · cases hrest
    exact .inr ⟨hrc, rfl, rfl⟩

lemma grows_obd2Update (h : obd2Update H junk s = .ok (b, s')) : Grows s.board s'.board := by
  obtain ⟨rc, res, s₁, hread, ⟨-, s₂, hexit, hentry, -⟩ | ⟨-, -, rfl⟩⟩ := obd2Update_ok h
  · have hsame := board_obd2StateExit hexit
    exact (grows_readline hread).trans (hsame ▸ grows_obd2StateEntry hentry)
  · exact grows_readline hread

lemma run_last (h : run H s (n + 1) = .ok s') :
    ∃ s₁ b, run H s n = .ok s₁ ∧ obd2Update H (H.junk n) s₁ = .ok (b, s') := by
  obtain ⟨s₁, hrun, hrest⟩ := bind_eq_ok.mp h
  obtain ⟨⟨b, s₂⟩, hupdate, hs⟩ := bind_eq_ok.mp hrest
  cases hs
  exact ⟨s₁, b, hrun, hupdate⟩

/-- The rule for what every call keeps. -/
lemma run_inv {P : State → Prop}
    (hcall : ∀ junk s b s', P s → obd2Update H junk s = .ok (b, s') → P s') (hs : P s)
    (h : run H s n = .ok s') : P s' := by
  induction n generalizing s' with
  | zero =>
    cases h
    exact hs
  | succ n ih =>
    obtain ⟨s₁, b, hrun, hupdate⟩ := run_last h
    exact hcall _ s₁ b s' (ih hrun) hupdate

lemma grows_run (h : run H s n = .ok s') : Grows s.board s'.board :=
  run_inv (P := fun s' => Grows s.board s'.board)
    (fun _ _ _ _ hs hupdate => hs.trans (grows_obd2Update hupdate)) (.refl _) h

lemma sendAll_cons {cmds : List (List Byte)} (h : sendAll H (command :: cmds) s = .ok s') :
    ∃ b s₁, obd2AtCommand H command s = .ok (b, s₁) ∧ sendAll H cmds s₁ = .ok s' := by
  unfold sendAll at h
  rw [List.foldlM_cons] at h
  obtain ⟨s₁, hcmd, hrest⟩ := bind_eq_ok.mp h
  cases hc : obd2AtCommand H command s with
  | error e => simp [hc, Functor.map, Except.map] at hcmd
  | ok q =>
    simp only [hc, Functor.map, Except.map, Except.ok.injEq] at hcmd
    exact ⟨q.1, s₁, by rw [← hcmd], hrest⟩

lemma sendAll_inv {P : State → Prop} {cmds : List (List Byte)}
    (hcmd : ∀ command s b s', P s → obd2AtCommand H command s = .ok (b, s') → P s') (hs : P s)
    (h : sendAll H cmds s = .ok s') : P s' := by
  induction cmds generalizing s with
  | nil =>
    cases h
    exact hs
  | cons command cmds ih =>
    obtain ⟨b, s₁, hc, hrest⟩ := sendAll_cons h
    exact ih (hcmd command s b s₁ hs hc) hrest

lemma grows_sendAll {cmds : List (List Byte)} (h : sendAll H cmds s = .ok s') :
    Grows s.board s'.board :=
  sendAll_inv (P := fun s' => Grows s.board s'.board)
    (fun _ _ _ _ hs hcmd => hs.trans (grows_obd2AtCommand hcmd)) (.refl _) h

/-! ### A call returns -/

lemma quiet_readline {rc : ℤ} {res : Option (List Byte)} (hq : s.board.Quiet)
    (h : readline H sync bufsz fuel s = .ok (rc, res, s')) : s'.board.Quiet := by
  obtain ⟨board, hr, rfl⟩ := readline_ok h
  exact PortReadline.readLoop_quiet hq.room hr

lemma quiet_obd2AtCommand (hq : s.board.Quiet) (h : obd2AtCommand H command s = .ok (b, s')) :
    s'.board.Quiet := by
  obtain ⟨bs, rc, res, -, hread, -⟩ := obd2AtCommand_ok h
  exact quiet_readline (s := s.did bs [.sendline command]) ⟨hq.eol, hq.room⟩ hread

lemma quiet_sendAll {cmds : List (List Byte)} (hq : s.board.Quiet)
    (h : sendAll H cmds s = .ok s') : s'.board.Quiet :=
  sendAll_inv (fun _ _ _ _ hs hcmd => quiet_obd2AtCommand hs hcmd) hq h

lemma quiet_obd2StateEntry (hq : s.board.Quiet) (h : obd2StateEntry H s = .ok s') :
    s'.board.Quiet := by
  obtain ⟨bs, -, rfl⟩ := obd2StateEntry_ok h
  exact ⟨hq.eol, hq.room⟩

lemma quiet_obd2Init {d : Data} (h : obd2Init H { atStart with data := d } = .ok s) :
    s.board.Quiet := by
  obtain ⟨s₁, hall, hentry⟩ := bind_eq_ok.mp h
  have hq : (obd2Clear { atStart with data := d }).board.Quiet := ⟨rfl, Nat.zero_le _⟩
  have hq₁ := quiet_sendAll hq hall
  exact quiet_obd2StateEntry (s := { s₁ with obd2State := .cilbr }) ⟨hq₁.eol, hq₁.room⟩ hentry

lemma obd2StateEntry_returns (H : Host R W D) (s : State) : ∃ s', obd2StateEntry H s = .ok s' := by
  cases hreq : requestOf s.obd2State with
  | none => exact ⟨_, by simp only [obd2StateEntry, hreq]; rfl⟩
  | some str => exact ⟨_, by simp only [obd2StateEntry, hreq]; rfl⟩

/-- The decoder is all that can go wrong. -/
lemma obd2StateExit_returns (response : List Byte) (s : State) :
    (∃ s', obd2StateExit response s = .ok s') ∨
      ∃ e, obd2StateExit response s = .error e ∧ Leaves e := by
  unfold obd2StateExit
  cases hexit : Obd2.obd2StateExit response (s.on ⟨s.board.uart, [], 0⟩) with
  | ok v => exact .inl ⟨s.withVars v, rfl⟩
  | error e => exact .inr ⟨e, rfl, Obd2.leaves_of_obd2StateExit hexit⟩

/-- **A call of `obd2_update` returns**, or the decoder leaves its data. -/
lemma obd2Update_returns (hq : s.board.Quiet) (junk : List Byte) :
    (∃ b s', obd2Update H junk s = .ok (b, s') ∧ s'.board.Quiet) ∨
      ∃ e, obd2Update H junk s = .error e ∧ Leaves e := by
  obtain ⟨r, hr⟩ : ∃ r, PortReadline.uartReadline H.site H.pace false obd2PidMaxN lineFuel s.board =
      some r := Option.isSome_iff_exists.mp (PortReadline.uartReadline_isSome hq)
  obtain ⟨⟨rc, res, s₁⟩, hread⟩ : ∃ q, readline H false obd2PidMaxN lineFuel s = .ok q :=
    ⟨_, by rw [readline, hr]⟩
  have hq₁ := quiet_readline hq hread
  unfold obd2Update
  rw [hread]
  dsimp only [bind, Except.bind]
  by_cases hrc : 0 ≤ rc
  · rw [if_pos hrc]
    rcases obd2StateExit_returns (res.getD junk) s₁ with ⟨s₂, hexit⟩ | ⟨e, hexit, he⟩
    · obtain ⟨s₃, hentry⟩ := obd2StateEntry_returns H s₂
      refine .inl ⟨_, s₃, by rw [hexit]; dsimp only; rw [hentry]; rfl, ?_⟩
      exact quiet_obd2StateEntry (board_obd2StateExit hexit ▸ hq₁) hentry
    · exact .inr ⟨e, by rw [hexit], he⟩
  · rw [if_neg hrc]
    exact .inl ⟨false, s₁, rfl, hq₁⟩

lemma run_returns (hq : s.board.Quiet) (n : ℕ) :
    (∃ s', run H s n = .ok s' ∧ s'.board.Quiet) ∨ ∃ e, run H s n = .error e ∧ Leaves e := by
  induction n with
  | zero => exact .inl ⟨s, rfl, hq⟩
  | succ n ih =>
    rcases ih with ⟨s₁, hrun, hq₁⟩ | ⟨e, hrun, he⟩
    · rcases obd2Update_returns hq₁ (H.junk n) with ⟨b, s₂, hu, hq₂⟩ | ⟨e, hu, he⟩
      · exact .inl ⟨s₂, by rw [run, hrun]; dsimp only [bind, Except.bind]; rw [hu]; rfl, hq₂⟩
      · exact .inr ⟨e, by rw [run, hrun]; dsimp only [bind, Except.bind]; rw [hu], he⟩
    · exact .inr ⟨e, by rw [run, hrun]; rfl, he⟩

/-! ### The coroutine on polls -/

/-- The port `p` is what the board is to the coroutine on polls. -/
def Hosts (H : Host R W D) (F : List Act) (s : State) (p : Port) : Prop :=
  ∃ pend, Sim H.site F s.board p pend

/-- What is done up to a board is a part of `F`, and `env` is what it has found. -/
structure Within (F : List Act) (env : ℕ → Poll) (s : State) : Prop where
  acts : s.board.acts <+: F
  polls : Agree env s.board.polls

lemma Within.of_grows (h : Within F env s') (hg : Grows s.board s'.board) : Within F env s :=
  ⟨hg.acts.trans h.acts, h.polls.mono hg.polls⟩

variable {p p' : Port} (hroom : Roomy H.site F)
include hroom

lemma Hosts.did {bs : List Act} {es : List Event} (h : Hosts H F s p) (hbs : Sends str bs)
    (hw : Within F env (s.did bs es)) : Hosts H F (s.did bs es) p := by
  obtain ⟨pend, hsim⟩ := h
  exact hsim.acts hw.acts hroom hbs.noRx

lemma Hosts.readline {rc : ℤ} {res : Option (List Byte)} (h : Hosts H F s p)
    (hr : readline H sync bufsz fuel s = .ok (rc, res, s')) (hw : Within F env s') :
    ∃ p', Obd2.readline env sync bufsz fuel (s.on p) = some (rc, res, s'.on p') ∧
      Hosts H F s' p' := by
  obtain ⟨pend, hsim⟩ := h
  obtain ⟨board, hcall, rfl⟩ := readline_ok hr
  obtain ⟨p', pend', hline, hsim'⟩ := hsim.readLoop hroom hcall hw.acts hw.polls
  refine ⟨p', ?_, pend', hsim'⟩
  have huart : Line.uartReadline env sync bufsz fuel (s.on p).port = some ⟨rc, res, p'⟩ := hline
  simp only [Obd2.readline, huart]
  rfl

omit hroom in
lemma obd2StateExit_port (response : List Byte) (v : Obd2.State) (p : Port) :
    Obd2.obd2StateExit response { v with port := p } =
      (fun v' => { v' with port := p }) <$> Obd2.obd2StateExit response v := by
  have hnext : ∀ v : Obd2.State,
      nextState { v with port := p } = { nextState v with port := p } := by
    intro v
    obtain ⟨port, q, data, baCount, trace⟩ := v
    cases q <;> simp only [nextState] <;> split_ifs <;> rfl
  unfold Obd2.obd2StateExit
  dsimp only
  by_cases hq : v.obd2State = .reset
  · rw [if_pos hq, if_pos hq]
    exact congrArg Except.ok (hnext (noted response v))
  · rw [if_neg hq, if_neg hq]
    cases hparse : obd2ParsePidResponse response v.data with
    | error e => rfl
    | ok q =>
      obtain ⟨ok, d⟩ := q
      cases ok with
      | false => rfl
      | true => exact congrArg Except.ok (hnext { noted response v with data := d })

omit hroom in
lemma on_obd2StateExit (h : obd2StateExit response s = .ok s') (p : Port) :
    Obd2.obd2StateExit response (s.on p) = .ok (s'.on p) := by
  obtain ⟨v, hv, hs⟩ := bind_eq_ok.mp h
  cases hs
  have hport := obd2StateExit_port response (s.on ⟨s.board.uart, [], 0⟩) p
  rw [hv] at hport
  exact hport

omit hroom in
lemma on_obd2StateEntry (s : State) (bs : List Act) (p : Port) :
    (s.did bs (.entry s.obd2State :: sent s.obd2State)).on p = Obd2.obd2StateEntry (s.on p) := by
  rw [obd2StateEntry_eq]
  rfl

/-- **A command** has on the polls the answer it has on the port. -/
lemma Hosts.obd2AtCommand (h : Hosts H F s p) (hc : obd2AtCommand H command s = .ok (b, s'))
    (hw : Within F env s') :
    ∃ p', Obd2.obd2AtCommand env H.fuel command (s.on p) = some (b, s'.on p') ∧
      Hosts H F s' p' := by
  obtain ⟨bs, rc, res, hbs, hread, rfl⟩ := obd2AtCommand_ok hc
  have hsent := h.did hroom hbs (hw.of_grows (grows_readline hread))
  obtain ⟨p', hr, h'⟩ := hsent.readline hroom hread hw
  refine ⟨p', ?_, h'⟩
  rw [obd2AtCommand_eq]
  exact congrArg (Option.map _) hr

lemma Hosts.sendAll {cmds : List (List Byte)} (h : Hosts H F s p)
    (hall : sendAll H cmds s = .ok s') (hw : Within F env s') :
    ∃ p', Obd2.sendAll env H.fuel cmds (s.on p) = some (s'.on p') ∧ Hosts H F s' p' := by
  induction cmds generalizing s p with
  | nil =>
    cases hall
    exact ⟨p, rfl, h⟩
  | cons command cmds ih =>
    obtain ⟨b, s₁, hcmd, hrest⟩ := sendAll_cons hall
    obtain ⟨p₁, hc, h₁⟩ := h.obd2AtCommand hroom hcmd (hw.of_grows (grows_sendAll hrest))
    obtain ⟨p', hr, h'⟩ := ih h₁ hrest
    refine ⟨p', ?_, h'⟩
    rw [Obd2.sendAll, List.foldlM_cons, hc]
    exact hr

/-- **`obd2_init`**. -/
lemma Hosts.obd2Init (h : Hosts H F s p) (hi : obd2Init H s = .ok s') (hw : Within F env s') :
    ∃ p', Obd2.obd2Init env H.fuel (s.on p) = some (s'.on p') ∧ Hosts H F s' p' := by
  obtain ⟨s₁, hall, hentry⟩ := bind_eq_ok.mp hi
  have hgrows : Grows s₁.board s'.board := by
    have hready := grows_obd2StateEntry hentry
    exact hready
  obtain ⟨pend, hsim⟩ := h
  have hclear : Hosts H F (obd2Clear s) { p with uart.uartEol := 0x3e } :=
    ⟨pend, by simp [obd2Clear, hsim.uart], hsim.now, hsim.held, hsim.delivered, hsim.unread⟩
  obtain ⟨p', hr, h'⟩ := hclear.sendAll hroom hall (hw.of_grows hgrows)
  obtain ⟨bs, hbs, rfl⟩ := obd2StateEntry_ok hentry
  have hready : Hosts H F { s₁ with obd2State := .cilbr } p' := h'
  refine ⟨p', ?_, hready.did hroom hbs hw⟩
  rw [on_obd2StateEntry]
  exact congrArg (Option.map _) hr

/-- **A call of `obd2_update`** does on the polls what it does on the port. -/
lemma Hosts.obd2Update (h : Hosts H F s p) (hu : obd2Update H junk s = .ok (b, s'))
    (hw : Within F env s') :
    ∃ p', Obd2.obd2Update env junk (s.on p) = .ok (b, s'.on p') ∧ Hosts H F s' p' := by
  obtain ⟨rc, res, s₁, hread, hcase⟩ := obd2Update_ok hu
  rcases hcase with ⟨hrc, s₂, hexit, hentry, hb⟩ | ⟨hrc, hb, hs⟩
  · have hboard := board_obd2StateExit hexit
    obtain ⟨p', hr, h'⟩ := h.readline hroom hread
      (hw.of_grows (hboard ▸ grows_obd2StateEntry hentry))
    obtain ⟨bs, hbs, rfl⟩ := obd2StateEntry_ok hentry
    refine ⟨p', ?_, Hosts.did hroom (by rwa [Hosts, hboard]) hbs hw⟩
    have hq : (Obd2.obd2StateEntry (s₂.on p')).obd2State =
        (s₂.did bs (.entry s₂.obd2State :: sent s₂.obd2State)).obd2State := by
      rw [← on_obd2StateEntry s₂ bs]
      rfl
    rw [Obd2.obd2Update, hr]
    dsimp only
    rw [if_pos hrc, on_obd2StateExit hexit, hb, on_obd2StateEntry, ← hq]
    rfl
  · rw [hs] at hw ⊢
    obtain ⟨p', hr, h'⟩ := h.readline hroom hread hw
    refine ⟨p', ?_, h'⟩
    rw [Obd2.obd2Update, hr]
    dsimp only
    rw [if_neg hrc, hb]
    rfl

/-- **Any number of calls.** -/
lemma Hosts.run (h : Hosts H F s p) (hrun : run H s n = .ok s') (hw : Within F env s') :
    ∃ p', Obd2.run env H.junk (s.on p) n = .ok (s'.on p') ∧ Hosts H F s' p' := by
  induction n generalizing s' with
  | zero =>
    cases hrun
    exact ⟨p, rfl, h⟩
  | succ n ih =>
    obtain ⟨s₁, b, hrun, hupdate⟩ := run_last hrun
    obtain ⟨p₁, hr, h₁⟩ := ih hrun (hw.of_grows (grows_obd2Update hupdate))
    obtain ⟨p', hu, h'⟩ := h₁.obd2Update hroom hupdate hw
    refine ⟨p', ?_, h'⟩
    rw [Obd2.run, hr]
    show (Obd2.obd2Update env (H.junk n) (s₁.on p₁) >>= fun q => pure q.2) = _
    rw [hu]
    rfl

end

/-! ### From power-up on -/

section
variable {R W D : ℕ} {H : Host R W D} {s s' s₀ : State} {sync : Bool}
  {str command response junk : List Byte} {bufsz fuel n : ℕ} {b : Bool}

/-- The coroutine on the polls that the status reads have found, next to the coroutine on the port:
the same variables and the same trace, the bytes delivered are those of the polls and those that
came after the last one, and the receive buffer has not been read while it was empty. -/
structure Refines (H : Host R W D) (d : Data) (s₀ s : State) (n : ℕ) (p₀ p : Port)
    (pend : List Byte) : Prop where
  init : Obd2.obd2Init (PortReadline.recorded s.board.polls) H.fuel
    { Obd2.atStart with data := d } = some (s₀.on p₀)
  run : Obd2.run (PortReadline.recorded s.board.polls) H.junk (s₀.on p₀) n = .ok (s.on p)
  uart : p.uart = s.board.uart
  delivered : H.site.delivered s.board.acts (H.site.now s.board.acts) =
    received (PortReadline.recorded s.board.polls) p.now ++ pend
  unread : H.site.unread s.board.acts (H.site.now s.board.acts) = p.rx ++ pend
  ready : ∀ t < H.site.now s.board.acts,
    Rtl.Uart.rdUartTick (H.site.uartAt s.board.acts t) (H.site.inp s.board.acts t) = true →
      Rtl.Uart.rxEmpty (H.site.uartAt s.board.acts t) = false

lemma refines_of_run {d : Data} (hinit : obd2Init H { atStart with data := d } = .ok s₀)
    (hrun : run H s₀ n = .ok s) (hroom : Roomy H.site s.board.acts) :
    ∃ p₀ p pend, Refines H d s₀ s n p₀ p pend := by
  have hw : Within s.board.acts (PortReadline.recorded s.board.polls) s :=
    ⟨List.prefix_rfl, PortReadline.agree_recorded _⟩
  have hstart : Hosts H s.board.acts { atStart with data := d } ⟨opened, [], 0⟩ :=
    ⟨[], PortReadline.sim_opened H.site s.board.acts opened⟩
  obtain ⟨p₀, hi, h₀⟩ := hstart.obd2Init hroom hinit (hw.of_grows (grows_run hrun))
  obtain ⟨p, hr, pend, hsim⟩ := h₀.run hroom hrun hw
  refine ⟨p₀, p, pend, hi, hr, hsim.uart, ?_, hsim.unread, fun t ht hp => hsim.held.ready t ht ?_⟩
  · rw [PortReadline.received_recorded, hsim.now, List.take_length]
    exact hsim.delivered
  · rw [← hp]
    exact (Rtl.Uart.rdUartTick_run t).symm

/-- **The coroutine on the port is the coroutine on polls**: whatever the variables hold, whatever
the line shows and however long everything takes, after `obd2_init` any number of calls of
`obd2_update` return, or the decoder leaves its data in one of them; and if they return and the
receive buffer has not been overrun, they have done on the port what they do on the polls that the
status reads have found. -/
theorem refines_run {d : Data} (hinit : obd2Init H { atStart with data := d } = .ok s₀) (n : ℕ) :
    (∃ s, run H s₀ n = .ok s ∧
      (Roomy H.site s.board.acts → ∃ p₀ p pend, Refines H d s₀ s n p₀ p pend)) ∨
    ∃ e, run H s₀ n = .error e ∧ Leaves e := by
  rcases run_returns (quiet_obd2Init hinit) n with ⟨s, hrun, -⟩ | herror
  · exact .inl ⟨s, hrun, refines_of_run hinit hrun⟩
  · exact .inr herror

/-! ### What is sent -/

/-- The characters handed to the transmitter. -/
def handed (s : State) : List Byte := s.board.acts.filterMap Act.data

lemma handed_did {bs : List Act} {es : List Event} (hbs : Sends str bs) :
    handed (s.did bs es) = handed s ++ cstr str := by
  rw [handed, State.did, List.filterMap_append, hbs.data]
  rfl

lemma data_readRound (S : Site R W D) (pace : ℕ → Pace) (sync : Bool) (bufsz : ℕ) (rc : ℤ)
    (b : Board) :
    (PortReadline.left (PortReadline.readRound S pace sync bufsz rc b)).acts.filterMap Act.data =
      b.acts.filterMap Act.data := by
  cases heol : b.uart.eol with
  | true =>
    rw [PortReadline.readRound_eol heol]
    rfl
  | false =>
    have hstatus : ∀ k, (b.status S k).acts.filterMap Act.data = b.acts.filterMap Act.data := by
      intro k
      simp [Board.status, Act.data]
    cases he : (b.status S (pace b.polls.length)).rxEmpty S with
    | true =>
      rw [PortReadline.readRound_empty heol rfl he]
      split_ifs
      · exact hstatus _
      · exact hstatus _
      · exact hstatus _
    | false =>
      by_cases hfull : b.uart.rxBuf.length = uartRxBufsz
      · rw [PortReadline.readRound_full heol rfl he hfull]
        exact hstatus _
      · rw [PortReadline.readRound_byte heol rfl he hfull]
        simp [PortReadline.left, Board.uart1Rx, Act.data, hstatus]

lemma data_readLoop {S : Site R W D} {pace : ℕ → Pace} {rc : ℤ} {b : Board}
    {r : PortReadline.Reply} (h : PortReadline.readLoop S pace sync bufsz n rc b = some r) :
    r.board.acts.filterMap Act.data = b.acts.filterMap Act.data :=
  PortReadline.readLoop_inv (P := fun b' => b'.acts.filterMap Act.data = b.acts.filterMap Act.data)
    (fun rc b' hb => (data_readRound S pace sync bufsz rc b').trans hb) rfl h

lemma readline_keeps {rc : ℤ} {res : Option (List Byte)}
    (h : readline H sync bufsz fuel s = .ok (rc, res, s')) :
    handed s' = handed s ∧ s'.obd2State = s.obd2State ∧ s'.data = s.data := by
  obtain ⟨board, hr, rfl⟩ := readline_ok h
  exact ⟨data_readLoop hr, rfl, rfl⟩

lemma obd2AtCommand_keeps (h : obd2AtCommand H command s = .ok (b, s')) :
    handed s' = handed s ++ cstr command ∧ s'.data = s.data := by
  obtain ⟨bs, rc, res, hbs, hread, -⟩ := obd2AtCommand_ok h
  obtain ⟨hhanded, -, hdata⟩ := readline_keeps hread
  exact ⟨hhanded.trans (handed_did hbs), hdata⟩

lemma sendAll_keeps {cmds : List (List Byte)} (h : sendAll H cmds s = .ok s') :
    handed s' = handed s ++ cmds.flatMap cstr ∧ s'.data = s.data := by
  induction cmds generalizing s with
  | nil =>
    cases h
    simp
  | cons command cmds ih =>
    obtain ⟨b, s₁, hcmd, hrest⟩ := sendAll_cons h
    obtain ⟨hhanded, hdata⟩ := obd2AtCommand_keeps hcmd
    obtain ⟨hhanded', hdata'⟩ := ih hrest
    refine ⟨?_, hdata'.trans hdata⟩
    rw [hhanded', hhanded, List.flatMap_cons, List.append_assoc]

/-- All the coroutine ever sends. -/
def asked : List Byte := atCommands.flatten ++ ascii "01 05 0f 04 33\r"

/-- The coroutine after its one request: no load has been seen, and none will be. -/
structure Asked (s : State) : Prop where
  load : s.data.displayParams.load ≤ 1 / 10
  obd2State : s.obd2State = .cilbr ∨ s.obd2State = .reset
  handed : handed s = asked

lemma asked_obd2Init (h : obd2Init H atStart = .ok s) : Asked s := by
  obtain ⟨s₁, hall, hentry⟩ := bind_eq_ok.mp h
  obtain ⟨hhanded, hdata⟩ := sendAll_keeps hall
  obtain ⟨bs, hbs, rfl⟩ := obd2StateEntry_ok hentry
  refine ⟨?_, .inl rfl, ?_⟩
  · show s₁.data.displayParams.load ≤ 1 / 10
    rw [hdata]
    show (0 : ℚ) ≤ 1 / 10
    norm_num
  · rw [handed_did hbs]
    exact (congrArg (· ++ cstr (ascii "01 05 0f 04 33\r")) hhanded).trans (by decide)

lemma Asked.obd2StateExit (h : Asked s) (hexit : obd2StateExit response s = .ok s') :
    Asked s' ∧ s'.obd2State = .reset := by
  set p : Port := ⟨s.board.uart, [], 0⟩
  have hboard := board_obd2StateExit hexit
  have hstate : s'.obd2State = (s'.on p).obd2State := rfl
  have hdata : s'.data = (s'.on p).data := rfl
  have hreset : s'.obd2State = .reset ∧ s'.data.displayParams.load ≤ 1 / 10 := by
    rw [hstate, hdata]
    obtain ⟨hq, hs⟩ | ⟨hq, d, ⟨hparse, hs⟩ | ⟨hparse, hs⟩⟩ :=
      obd2StateExit_cases (on_obd2StateExit hexit p)
    · rw [hs, nextState_data]
      exact ⟨nextState_reset hq, h.load⟩
    · have hload : d.displayParams.load ≤ 1 / 10 := by
        rw [(blind_of_parse hparse).displayParams]
        exact h.load
      have hcilbr : s.obd2State = .cilbr := h.obd2State.resolve_right hq
      rw [hs, nextState_data]
      refine ⟨?_, hload⟩
      simp only [nextState, noted, State.on, hcilbr]
      rw [if_pos hload]
    · have hload : d.displayParams.load ≤ 1 / 10 := by
        rw [(blind_of_parse hparse).displayParams]
        exact h.load
      rw [hs]
      exact ⟨rfl, hload⟩
  refine ⟨⟨hreset.2, .inr hreset.1, ?_⟩, hreset.1⟩
  exact (congrArg (fun b : Board => b.acts.filterMap Act.data) hboard).trans h.handed

lemma Asked.obd2Update (h : Asked s) (hu : obd2Update H junk s = .ok (b, s')) : Asked s' := by
  obtain ⟨rc, res, s₁, hread, hcase⟩ := obd2Update_ok hu
  obtain ⟨hhanded, hq, hdata⟩ := readline_keeps hread
  have h₁ : Asked s₁ := ⟨by rw [hdata]; exact h.load, by rw [hq]; exact h.obd2State,
    hhanded.trans h.handed⟩
  rcases hcase with ⟨-, s₂, hexit, hentry, -⟩ | ⟨-, -, rfl⟩
  · obtain ⟨h₂, hreset⟩ := h₁.obd2StateExit hexit
    obtain ⟨bs, hbs, rfl⟩ := obd2StateEntry_ok hentry
    rw [hreset] at hbs
    refine ⟨h₂.load, h₂.obd2State, ?_⟩
    rw [handed_did hbs, h₂.handed]
    rfl
  · exact h₁

lemma Asked.run (h : Asked s) (hrun : run H s n = .ok s') : Asked s' :=
  run_inv (fun _ _ _ _ hs hupdate => hs.obd2Update hupdate) h hrun

/-! ### What is on the line -/

/-- The port on its tick schedule. -/
def Host.drive (H : Host R W D) (as : List Act) : Rtl.Uart.Drive R W D :=
  ⟨H.site.c, exec ModMCounter.next H.site.phase fun _ => H.site.dvsr, H.site.before, H.site.inp as⟩

section
variable {as : List Act} {bytes : List Byte}

lemma written_drive (hdata : as.filterMap Act.data = bytes) (t : ℕ) :
    Rtl.Uart.written (H.drive as).inp t <+: bytes := by
  rw [← hdata]
  exact written_initial H.site.line rfl as t

lemma written_drive_of_le (hdata : as.filterMap Act.data = bytes) {t : ℕ}
    (ht : H.site.now as ≤ t) : Rtl.Uart.written (H.drive as).inp t = bytes := by
  have hfull : Rtl.Uart.written (H.drive as).inp (H.site.now as) = bytes :=
    (written_clocks H.site.line rfl as).trans hdata
  have hge : Rtl.Uart.written (H.drive as).inp (H.site.now as) <+:
      Rtl.Uart.written (H.drive as).inp t := collect_initial _ ht
  rw [hfull] at hge
  exact (written_drive hdata t).eq_of_length_le hge.length_le

lemma room_drive (hdata : as.filterMap Act.data = bytes) (hlen : bytes.length ≤ 2 ^ W - 1) (t : ℕ) :
    ((H.drive as).queue t).length ≤ 2 ^ W - 1 := by
  have hle := Sendline.length_queue_le (H.drive as) 0 t
  rw [Nat.zero_add] at hle
  have hwritten := (written_drive (H := H) hdata t).length_le
  have hzero : ((H.drive as).queue 0).length = 0 := rfl
  omega

section
variable (hdata : as.filterMap Act.data = bytes) (hlen : bytes.length ≤ 2 ^ W - 1)
  (hos : 0 < H.site.c.osTick.toNat) (hsb : 0 < H.site.c.sbTick.toNat)
include hdata hlen hos hsb

lemma sent_drive (t : ℕ) : (H.drive as).sent t ++ (H.drive as).queue t =
    Rtl.Uart.written (H.drive as).inp t :=
  Rtl.Uart.Drive.sent_append_queue fun u _ =>
    (Rtl.Uart.Drive.run_mode hos hsb u
      fun v _ => Sendline.lt_of_le_sub_one (room_drive hdata hlen v)).2.pop

/-- **With an empty buffer** after the last act the line has carried all the bytes. -/
lemma drained_drive {t : ℕ} (ht : H.site.now as ≤ t)
    (he : Rtl.Uart.txEmpty ((H.drive as).state t) = true) :
    (H.drive as).Drained t ∧
      Rtl.Uart.Carries H.site.c (H.drive as).tickAt (H.drive as).line bytes t := by
  have hdrained := Rtl.Uart.Drive.drained_of_txEmpty hos hsb
    (fun u _ => room_drive hdata hlen u) he
  exact ⟨hdrained, written_drive_of_le (H := H) hdata ht ▸ hdrained.carries⟩

end

end

lemma length_asked (hW : 6 ≤ W) : asked.length ≤ 2 ^ W - 1 := by
  have hlen : asked.length = 36 := by decide
  have hpow : 2 ^ 6 ≤ 2 ^ W := Nat.pow_le_pow_right (by decide) hW
  omega

/-- What has gone out when the acts `as` are done: the transmitter has been handed the three
commands and one request, its buffer has not been overrun, the bytes sent and those waiting have
always been a beginning of them, and with an empty buffer the line has carried their frames. -/
structure Carried (H : Host R W D) (as : List Act) : Prop where
  handed : as.filterMap Act.data = asked
  room : ∀ t, ((H.drive as).queue t).length ≤ 2 ^ W - 1
  initial : ∀ t, (H.drive as).sent t ++ (H.drive as).queue t <+: asked
  frames : ∀ t, H.site.now as ≤ t → Rtl.Uart.txEmpty ((H.drive as).state t) = true →
    ((H.drive as).state t).uartTxUnit.stateReg = .idle ∧
      Rtl.Uart.Carries H.site.c (H.drive as).tickAt (H.drive as).line asked t

lemma carried_of_handed {as : List Act} (hasked : as.filterMap Act.data = asked)
    (hos : 0 < H.site.c.osTick.toNat) (hsb : 0 < H.site.c.sbTick.toNat) (hW : 6 ≤ W) :
    Carried H as where
  handed := hasked
  room := room_drive hasked (length_asked hW)
  initial t := by
    rw [sent_drive hasked (length_asked hW) hos hsb]
    exact written_drive hasked t
  frames t ht he := by
    obtain ⟨hdrained, hcarries⟩ := drained_drive hasked (length_asked hW) hos hsb ht he
    exact ⟨hdrained.idle, hcarries⟩

/-- **What goes out from power-up on**: whatever is received and however long everything takes,
after `obd2_init` any number of calls of `obd2_update` return, or the decoder leaves its data in one
of them; and if they return, the port has carried the three commands and one request, never
more. -/
theorem line_carries (hinit : obd2Init H atStart = .ok s₀) (hos : 0 < H.site.c.osTick.toNat)
    (hsb : 0 < H.site.c.sbTick.toNat) (hW : 6 ≤ W) (n : ℕ) :
    (∃ s, run H s₀ n = .ok s ∧ Carried H s.board.acts) ∨
      ∃ e, run H s₀ n = .error e ∧ Leaves e := by
  rcases run_returns (quiet_obd2Init (d := atStart.data) hinit) n with ⟨s, hrun, -⟩ | herror
  · exact .inl ⟨s, hrun, carried_of_handed ((asked_obd2Init hinit).run hrun).handed hos hsb hW⟩
  · exact .inr herror

end

/-- In fewer clocks than the receive buffer has places it is not overrun. -/
lemma roomy_of_now_lt {R W D : ℕ} {S : Site R W D} {F : List Act} (h : S.now F < 2 ^ R) :
    Roomy S F := by
  have hle : ∀ t, (S.unread F t).length ≤ t := by
    intro t
    refine (Lib.Ring.length_le_pushed _ t).trans ?_
    induction t with
    | zero => exact Nat.le_refl _
    | succ t ih =>
      have hone : ∀ o : Option Byte, o.toList.length ≤ 1 := fun o => by cases o <;> simp
      rw [collect_succ, List.length_append]
      exact Nat.add_le_add ih (hone _)
  exact fun t ht => lt_of_le_of_lt ((hle t).trans ht) h

/-- The levels of a frame with two clocks a bit. -/
def levels (b : Byte) : List Bool :=
  [false, false] ++ (List.range 8).flatMap (fun i => [b.getLsbD i, b.getLsbD i]) ++ [true, true]

/-- An adapter that answers the three commands and refuses the first request, on a port with a
tick every clock and two ticks a bit. -/
def answering : Host 9 6 1 where
  site := ⟨⟨8, 0, 2, 2⟩, 0, ModMCounter.reset, Rtl.Uart.blank,
    fun t => ((ascii ">>>?>").flatMap levels).getD t true, 0⟩
  pace := fun _ => ⟨0, fun _ => 0, 0⟩
  sendPace := fun n => ⟨fun _ => if n = 0 then 0 else 40, fun _ _ => 0, 0⟩
  junk := fun _ => zeros
  fuel := 5

lemma answering_returns : ∃ s₀ s, obd2Init answering atStart = .ok s₀ ∧
    run answering s₀ 1 = .ok s ∧ answering.site.now s.board.acts < 2 ^ 9 ∧
    Event.exit .cilbr (ascii "?>") ∈ s.trace := by
  have hok : (obd2Init answering atStart >>= fun s₀ => (run answering s₀ 1).map fun s =>
      decide (answering.site.now s.board.acts < 2 ^ 9 ∧
        Event.exit .cilbr (ascii "?>") ∈ s.trace)) = .ok true := by
    decide +kernel
  obtain ⟨s₀, hinit, hrest⟩ := bind_eq_ok.mp hok
  cases hrun : run answering s₀ 1 with
  | error e => simp [hrun, Except.map] at hrest
  | ok s =>
    simp only [hrun, Except.map, Except.ok.injEq, decide_eq_true_eq] at hrest
    exact ⟨s₀, s, hinit, hrun, hrest⟩

lemma of_answering {s₀ s : State} {P : State → Prop} (hrun : run answering s₀ 1 = .ok s)
    (h : (∃ s, run answering s₀ 1 = .ok s ∧ P s) ∨
      ∃ e, run answering s₀ 1 = .error e ∧ Leaves e) : P s := by
  rcases h with ⟨s', hs', hP⟩ | ⟨e, he, -⟩
  · rw [hrun] at hs'
    cases hs'
    exact hP
  · rw [hrun] at he
    cases he

/-- The refusal comes in, and the coroutine on the polls is given it as well. -/
theorem refines_answering : ∃ s₀ s p₀ p pend, obd2Init answering atStart = .ok s₀ ∧
    run answering s₀ 1 = .ok s ∧ Event.exit .cilbr (ascii "?>") ∈ s.trace ∧
    Refines answering atStart.data s₀ s 1 p₀ p pend := by
  obtain ⟨s₀, s, hinit, hrun, hnow, hreply⟩ := answering_returns
  obtain ⟨p₀, p, pend, hrefines⟩ :=
    of_answering hrun (refines_run (d := atStart.data) hinit 1) (roomy_of_now_lt hnow)
  exact ⟨s₀, s, p₀, p, pend, hinit, hrun, hreply, hrefines⟩

theorem line_carries_answering : ∃ s₀ s, obd2Init answering atStart = .ok s₀ ∧
    run answering s₀ 1 = .ok s ∧ Event.exit .cilbr (ascii "?>") ∈ s.trace ∧
    Carried answering s.board.acts := by
  obtain ⟨s₀, s, hinit, hrun, -, hreply⟩ := answering_returns
  exact ⟨s₀, s, hinit, hrun, hreply,
    of_answering hrun (line_carries hinit (by decide) (by decide) (Nat.le_refl 6) 1)⟩

end Blastit.Fw.Obd2Port
