import Blastit.Fw.Line
import Blastit.Fw.PidParser
import Blastit.Lib.Calls

/-!
`obd2.c`: the OBD2 coroutine.

`trace` records what the coroutine does: the lines it sends, its calls of
`obd2_state_exit` and `obd2_state_entry`, and the receive timeouts it is told of.
-/

namespace Blastit.Fw.Obd2

open Blastit.Lib.Text Blastit.Lib.Calls Blastit.Fw.Uart Blastit.Fw.Line Blastit.Fw.PidParser

inductive Obd2State
  | reset | cilbr | oil | ba
  deriving DecidableEq, Repr

inductive Event
  | sendline (str : List Byte)
  | timeout
  | exit (state : Obd2State) (response : List Byte)
  | entry (state : Obd2State)
  deriving DecidableEq, Repr

/-- The variables of `obd2.c`, with the port and the trace. -/
structure State where
  port : Port
  obd2State : Obd2State
  data : Data
  baCount : BitVec 16
  trace : List Event

abbrev obd2AtMaxN : ℕ := 64
abbrev obd2PidMaxN : ℕ := 256
abbrev baModuloN : BitVec 16 := 10

/-- `uart_sendline`: the length it returns. -/
def uartSendline (str : List Byte) (s : State) : ℤ × State :=
  (str.length, { s with trace := s.trace ++ [.sendline str] })

/-- A call of `uart_readline` on the port: its return code and what it writes to `str`. -/
def readline (env : ℕ → Poll) (sync : Bool) (bufsz fuel : ℕ) (s : State) :
    Option (ℤ × Option (List Byte) × State) :=
  (uartReadline env sync bufsz fuel s.port).map fun r =>
    (r.rc, r.str, { s with
      port := r.port
      trace := if r.rc = uartErrorTimeout then s.trace ++ [.timeout] else s.trace })

def requestOf : Obd2State → Option (List Byte)
  | .oil => some (ascii "21 01\r")
  | .ba => some (ascii "01 34 0b\r")
  | .cilbr => some (ascii "01 05 0f 04 33\r")
  | .reset => none

def obd2StateEntry (s : State) : State :=
  let s := { s with trace := s.trace ++ [Event.entry s.obd2State] }
  let (error, s) :=
    match requestOf s.obd2State with
    | some str => uartSendline str s
    | none => (uartReady, s)
  if error < 0 then { s with obd2State := .reset } else s

/-- What follows a parsed response in each state. -/
def nextState (s : State) : State :=
  match s.obd2State with
  | .cilbr =>
    if s.data.displayParams.load ≤ 1 / 10 then { s with obd2State := .reset }
    else { s with obd2State := .oil }
  | .oil => { s with obd2State := .ba }
  | .ba =>
    if s.baCount < baModuloN then { s with baCount := s.baCount + 1, obd2State := .ba }
    else { s with baCount := 0, obd2State := .cilbr }
  | .reset => { s with obd2State := .reset }

/-- `obd2_state_exit`; only the unknown state does without the parser. The trace holds the
string in the array. -/
def obd2StateExit (response : List Byte) (s : State) : Except Fault State := do
  let s := { s with trace := s.trace ++ [Event.exit s.obd2State (cstr response)] }
  if s.obd2State = .reset then return nextState s
  else
    let (ok, d) ← obd2ParsePidResponse response s.data
    let s := { s with data := d }
    return if ok then nextState s else { s with obd2State := .reset }

/-- `obd2_at_command`; `none` while the adapter has not answered. -/
def obd2AtCommand (env : ℕ → Poll) (fuel : ℕ) (command : List Byte) (s : State) :
    Option (Bool × State) :=
  let (error, s) := uartSendline command s
  if error < 0 then some (false, s)
  else
    (readline env true obd2AtMaxN fuel s).map fun (error, str, s) =>
      (decide (0 ≤ error) && obd2ParseAtResponse (cstr (str.getD [])), s)

def atCommands : List (List Byte) := [ascii "\rate0\r", ascii "atsp0\r", ascii "atsh 7e0\r"]

def sendAll (env : ℕ → Poll) (fuel : ℕ) (cmds : List (List Byte)) (s : State) : Option State :=
  cmds.foldlM (fun s c => (obd2AtCommand env fuel c s).map Prod.snd) s

/-- The assignments at the top of `obd2_init`. -/
def obd2Clear (s : State) : State :=
  { s with
    obd2State := .reset
    data.pids := noPids
    data.boostRef := 0
    baCount := 0
    port.uart.uartEol := 0x3e }

def obd2Init (env : ℕ → Poll) (fuel : ℕ) (s : State) : Option State :=
  (sendAll env fuel atCommands (obd2Clear s)).map fun s =>
    obd2StateEntry { s with obd2State := .cilbr }

/-- `obd2_update`; `junk` is what its uninitialised buffer holds. -/
def obd2Update (env : ℕ → Poll) (junk : List Byte) (s : State) : Except Fault (Bool × State) :=
  match readline env false obd2PidMaxN lineFuel s with
  | none => .error .waiting
  | some (error, str, s) =>
    if 0 ≤ error then do
      let s ← obd2StateExit (str.getD junk) s
      let s := obd2StateEntry s
      return (decide (s.obd2State ≠ .reset), s)
    else return (false, s)

/-- Any number of calls of `obd2_update`. -/
def run (env : ℕ → Poll) (junk : ℕ → List Byte) (s : State) : ℕ → Except Fault State
  | 0 => .ok s
  | n + 1 => do
    let s ← run env junk s n
    let (_, s) ← obd2Update env (junk n) s
    return s

/-- The variables of `uart.c` after the `uart_open` of `init`. -/
def opened : Uart.State :=
  match uartOpen Uart.initial uartDbit8 .one uartParityNone 115200 with
  | .ok (_, u) => u
  | .error _ => Uart.initial

/-- What `obd2_init` finds. -/
def atStart : State where
  port := ⟨opened, [], 0⟩
  obd2State := .reset
  data := ⟨noPids, 0, ⟨0, 0, 0, 0, 0, 0⟩⟩
  baCount := 0
  trace := []

def zeros : List Byte := List.replicate obd2PidMaxN 0

def engineData : Data := ⟨noPids, 0, ⟨0, 0, 0, 0, 0, 50⟩⟩

/-! ### Specifications -/

section
variable {env : ℕ → Poll} {fuel : ℕ} {s s' : State} {response : List Byte}

/-- What `obd2_state_entry` sends in a state. -/
def sent (q : Obd2State) : List Event := ((requestOf q).map .sendline).toList

/-- `obd2_state_entry` sends the request of the state, and changes no variable. -/
lemma obd2StateEntry_eq (s : State) :
    obd2StateEntry s = { s with trace := s.trace ++ .entry s.obd2State :: sent s.obd2State } := by
  obtain ⟨port, q, data, baCount, trace⟩ := s
  have hlen : ∀ n : ℕ, ¬ (n : ℤ) < 0 := fun n => by omega
  cases q <;> simp [obd2StateEntry, sent, requestOf, uartSendline, uartReady, hlen]

/-- The state with which `obd2_state_exit` calls the parser. -/
def noted (response : List Byte) (s : State) : State :=
  { s with trace := s.trace ++ [Event.exit s.obd2State (cstr response)] }

/-- What `obd2_state_exit` can do: nothing is parsed in the reset state; elsewhere the verdict
of the parser leads on, or to the reset state. -/
lemma obd2StateExit_cases (h : obd2StateExit response s = .ok s') :
    (s.obd2State = .reset ∧ s' = nextState (noted response s)) ∨
      s.obd2State ≠ .reset ∧ ∃ d,
        (obd2ParsePidResponse response s.data = .ok (true, d) ∧
          s' = nextState { noted response s with data := d }) ∨
        (obd2ParsePidResponse response s.data = .ok (false, d) ∧
          s' = { noted response s with data := d, obd2State := .reset }) := by
  unfold obd2StateExit at h
  dsimp only at h
  split_ifs at h with hq
  · cases h
    exact .inl ⟨hq, rfl⟩
  · obtain ⟨⟨ok, d⟩, hparse, hs⟩ := bind_eq_ok.mp h
    cases hs
    refine .inr ⟨hq, d, ?_⟩
    cases ok with
    | true => exact .inl ⟨hparse, rfl⟩
    | false => exact .inr ⟨hparse, rfl⟩

/-- What `obd2_state_exit` does to the port, the trace and the state. -/
structure Exits (s s' : State) (response : List Byte) : Prop where
  port : s'.port = s.port
  trace : s'.trace = s.trace ++ [.exit s.obd2State (cstr response)]
  reset : s.obd2State = .reset → s'.obd2State = .reset

lemma nextState_eq (s : State) : (nextState s).port = s.port ∧ (nextState s).trace = s.trace := by
  unfold nextState
  split <;> (try split_ifs) <;> exact ⟨rfl, rfl⟩

lemma nextState_reset (h : s.obd2State = .reset) : (nextState s).obd2State = .reset := by
  simp [nextState, h]

lemma obd2StateExit_exits (h : obd2StateExit response s = .ok s') : Exits s s' response := by
  obtain ⟨hq, rfl⟩ | ⟨hq, d, ⟨-, rfl⟩ | ⟨-, rfl⟩⟩ := obd2StateExit_cases h
  · obtain ⟨hport, htrace⟩ := nextState_eq (noted response s)
    exact ⟨hport, htrace, fun _ => nextState_reset hq⟩
  · obtain ⟨hport, htrace⟩ := nextState_eq { noted response s with data := d }
    exact ⟨hport, htrace, fun h => absurd h hq⟩
  · exact ⟨rfl, rfl, fun h => absurd h hq⟩

lemma uartSendline_ok (str : List Byte) (s : State) : ¬ (uartSendline str s).1 < 0 := by
  simp [uartSendline]

lemma obd2AtCommand_eq (command : List Byte) :
    obd2AtCommand env fuel command s =
      (readline env true obd2AtMaxN fuel (uartSendline command s).2).map fun q =>
        (decide (0 ≤ q.1) && obd2ParseAtResponse (cstr (q.2.1.getD [])), q.2.2) := by
  unfold obd2AtCommand
  dsimp only
  rw [if_neg (uartSendline_ok command s)]

lemma sendAll_cons {cmd : List Byte} {cmds : List (List Byte)}
    (h : sendAll env fuel (cmd :: cmds) s = some s') :
    ∃ b s₁, obd2AtCommand env fuel cmd s = some (b, s₁) ∧ sendAll env fuel cmds s₁ = some s' := by
  unfold sendAll at h
  rw [List.foldlM_cons] at h
  cases hc : obd2AtCommand env fuel cmd s with
  | none => simp [hc] at h
  | some q =>
    rw [hc] at h
    exact ⟨q.1, q.2, rfl, h⟩

/-- **The invariant rule for the commands**: what each of them keeps holds after all. -/
lemma sendAll_inv {P : State → Prop} {cmds : List (List Byte)}
    (hcmd : ∀ cmd s b s', P s → obd2AtCommand env fuel cmd s = some (b, s') → P s') (hs : P s)
    (h : sendAll env fuel cmds s = some s') : P s' := by
  induction cmds generalizing s with
  | nil =>
    cases h
    exact hs
  | cons cmd cmds ih =>
    obtain ⟨b, s₁, hc, hrest⟩ := sendAll_cons h
    exact ih (hcmd cmd s b s₁ hs hc) hrest

lemma run_succ {junk : ℕ → List Byte} {s₀ : State} {n : ℕ}
    (h : run env junk s₀ (n + 1) = .ok s') :
    ∃ s b, run env junk s₀ n = .ok s ∧ obd2Update env (junk n) s = .ok (b, s') := by
  obtain ⟨s, hn, hrest⟩ := bind_eq_ok.mp h
  obtain ⟨⟨b, s₁⟩, hu, hs⟩ := bind_eq_ok.mp hrest
  cases hs
  exact ⟨s, b, hn, hu⟩

end

end Blastit.Fw.Obd2
