import Blastit.Lib.Clocked
import Blastit.Lib.Flags
import Mathlib.Data.BitVec

/-!
The four status lights: `status_led_enable`, `status_led_on` and `status_led_off` of
`controller_system.c`, and their callers in `uart.c`, `obd2.c` and `controller.c`.

What the callers do to the lights is a row of events. The lights of the serial port are only
touched when its status changes, and those of the OBD2 coroutine on every event; the register
is only written while the lights are enabled.
-/

namespace Blastit.Fw.StatusLeds

open Blastit.Lib.Clocked Blastit.Lib.Flags

/-- `IGN_STATUS_LED`, `ERR_STATUS_LED`, `URX_STATUS_LED` and `UTX_STATUS_LED`. -/
inductive StatusLed
  | ign | err | urx | utx
  deriving DecidableEq, Repr

def StatusLed.idx : StatusLed → ℕ
  | .ign => 0
  | .err => 1
  | .urx => 2
  | .utx => 3

def StatusLed.mask (l : StatusLed) : BitVec 32 := BitVec.twoPow 32 l.idx

inductive UartWrStatus
  | none | read | write
  deriving DecidableEq, Repr

/-- The variables behind the lights, and the register `STATUS_LED_EN`. -/
structure State where
  statusLedMask : BitVec 32
  statusLedEn : Bool
  wrStatus : UartWrStatus
  ign : Bool
  port : BitVec 4

/-- At power-up. -/
def initial : State := ⟨0, false, .none, false, 0⟩

/-- A light is lit while its line is driven low. -/
def lit (l : StatusLed) (s : State) : Bool := s.port.getLsbD l.idx

/-! ### The calls -/

def statusLedEnable (en : Bool) (s : State) : State :=
  let s := { s with statusLedEn := en }
  if s.statusLedEn then { s with port := s.statusLedMask.setWidth 4 } else { s with port := 0 }

def statusLedOn (mask : BitVec 32) (s : State) : State :=
  let s := { s with statusLedMask := s.statusLedMask ||| mask }
  if s.statusLedEn then { s with port := s.statusLedMask.setWidth 4 } else s

def statusLedOff (mask : BitVec 32) (s : State) : State :=
  let s := { s with statusLedMask := s.statusLedMask &&& ~~~mask }
  if s.statusLedEn then { s with port := s.statusLedMask.setWidth 4 } else s

def uartStatusNone (s : State) : State :=
  if UartWrStatus.none ≠ s.wrStatus then
    statusLedOff StatusLed.urx.mask
      (statusLedOff StatusLed.utx.mask { s with wrStatus := .none })
  else s

def uartStatusRead (s : State) : State :=
  if UartWrStatus.read ≠ s.wrStatus then
    statusLedOn StatusLed.urx.mask
      (statusLedOff StatusLed.utx.mask { s with wrStatus := .read })
  else s

def uartStatusWrite (s : State) : State :=
  if UartWrStatus.write ≠ s.wrStatus then
    statusLedOn StatusLed.utx.mask
      (statusLedOff StatusLed.urx.mask { s with wrStatus := .write })
  else s

/-! ### The callers -/

inductive Event
  /-- `status_led_enable` in `init`. -/
  | enable
  | uartSendline
  /-- A call of `uart_readline`, and whether it runs into its timeout. -/
  | uartReadline (timeout : Bool)
  | uartClose
  /-- `obd2_update` has a complete reply. -/
  | replied
  /-- `obd2_parse_pid_response` finds a refusal. -/
  | refused
  /-- `obd2_state_exit` leaves `CILBr` with a load. -/
  | ignition
  | obd2Shutdown
  /-- `shutdown` of `controller.c`. -/
  | shutdown
  deriving DecidableEq, Repr

def obd2Shutdown (s : State) : State :=
  statusLedOff StatusLed.err.mask (statusLedOff StatusLed.ign.mask s)

def step (s : State) : Event → State
  | .enable => statusLedEnable true s
  | .uartSendline => uartStatusWrite s
  | .uartReadline timeout =>
    let s := uartStatusRead s
    if timeout then uartStatusNone s else s
  | .uartClose => uartStatusNone s
  | .replied => statusLedOff StatusLed.err.mask s
  | .refused => statusLedOn StatusLed.err.mask s
  | .ignition => if !s.ign then statusLedOn StatusLed.ign.mask s else s
  | .obd2Shutdown => obd2Shutdown s
  | .shutdown =>
    statusLedEnable false
      (statusLedOff (StatusLed.ign.mask ||| StatusLed.err.mask ||| StatusLed.urx.mask |||
        StatusLed.utx.mask) (uartStatusNone (obd2Shutdown s)))

/-! ### What the variables say -/

def wanted (l : StatusLed) (s : State) : Bool := s.statusLedMask.getLsbD l.idx

/-- The register shows what is wanted, if the lights are enabled, and the lights of the serial
port are those of its status. -/
structure Agrees (s : State) : Prop where
  port : s.port = if s.statusLedEn then s.statusLedMask.setWidth 4 else 0
  urx : wanted .urx s = decide (s.wrStatus = .read)
  utx : wanted .utx s = decide (s.wrStatus = .write)
  ign : s.ign = false

section
variable {s : State} {m : BitVec 32} {l k : StatusLed}

@[simp] lemma mask_getLsbD (l k : StatusLed) : l.mask.getLsbD k.idx = decide (l = k) := by
  cases l <;> cases k <;> decide

/-- What switching a light leaves alone, and that the register follows. -/
lemma statusLedOn_frame (m : BitVec 32) (s : State) :
    (statusLedOn m s).statusLedEn = s.statusLedEn ∧ (statusLedOn m s).wrStatus = s.wrStatus ∧
      (statusLedOn m s).ign = s.ign := by
  unfold statusLedOn
  dsimp only
  split_ifs <;> exact ⟨rfl, rfl, rfl⟩

lemma statusLedOff_frame (m : BitVec 32) (s : State) :
    (statusLedOff m s).statusLedEn = s.statusLedEn ∧ (statusLedOff m s).wrStatus = s.wrStatus ∧
      (statusLedOff m s).ign = s.ign := by
  unfold statusLedOff
  dsimp only
  split_ifs <;> exact ⟨rfl, rfl, rfl⟩

@[simp] lemma statusLedEn_on : (statusLedOn m s).statusLedEn = s.statusLedEn :=
  (statusLedOn_frame m s).1

@[simp] lemma statusLedEn_off : (statusLedOff m s).statusLedEn = s.statusLedEn :=
  (statusLedOff_frame m s).1

@[simp] lemma wrStatus_on : (statusLedOn m s).wrStatus = s.wrStatus := (statusLedOn_frame m s).2.1

@[simp] lemma wrStatus_off : (statusLedOff m s).wrStatus = s.wrStatus :=
  (statusLedOff_frame m s).2.1

@[simp] lemma ign_on : (statusLedOn m s).ign = s.ign := (statusLedOn_frame m s).2.2

@[simp] lemma ign_off : (statusLedOff m s).ign = s.ign := (statusLedOff_frame m s).2.2

@[simp] lemma statusLedEn_enable (b : Bool) : (statusLedEnable b s).statusLedEn = b := by
  cases b <;> rfl

@[simp] lemma wrStatus_enable (b : Bool) : (statusLedEnable b s).wrStatus = s.wrStatus := by
  cases b <;> rfl

@[simp] lemma ign_enable (b : Bool) : (statusLedEnable b s).ign = s.ign := by cases b <;> rfl

@[simp] lemma wanted_enable (b : Bool) : wanted k (statusLedEnable b s) = wanted k s := by
  cases b <;> rfl

@[simp] lemma wanted_on : wanted k (statusLedOn m s) = (wanted k s || m.getLsbD k.idx) := by
  unfold wanted statusLedOn
  dsimp only
  split_ifs <;> exact BitVec.getLsbD_or

@[simp] lemma wanted_off : wanted k (statusLedOff m s) = (wanted k s && !m.getLsbD k.idx) := by
  have hlt : k.idx < 32 := by cases k <;> decide
  unfold wanted statusLedOff
  dsimp only
  split_ifs <;> simp [hlt]

@[simp] lemma wanted_wrStatus (st : UartWrStatus) :
    wanted k { s with wrStatus := st } = wanted k s := rfl

/-- The register after a call. -/
abbrev Shows (s : State) : Prop := s.port = if s.statusLedEn then s.statusLedMask.setWidth 4 else 0

lemma shows_enable (b : Bool) (s : State) : Shows (statusLedEnable b s) := by cases b <;> rfl

lemma Shows.on (h : Shows s) (m : BitVec 32) : Shows (statusLedOn m s) := by
  unfold Shows statusLedOn at *
  dsimp only
  split_ifs with hen
  · simp
  · simpa [hen] using h

lemma Shows.off (h : Shows s) (m : BitVec 32) : Shows (statusLedOff m s) := by
  unfold Shows statusLedOff at *
  dsimp only
  split_ifs with hen
  · simp
  · simpa [hen] using h

/-- What a change of the serial port's status does, wherever it comes from. -/
structure Becomes (st : UartWrStatus) (s s' : State) : Prop where
  agrees : Agrees s'
  wrStatus : s'.wrStatus = st
  statusLedEn : s'.statusLedEn = s.statusLedEn
  ign : wanted .ign s' = wanted .ign s
  err : wanted .err s' = wanted .err s

lemma Agrees.becomes (h : Agrees s) : Becomes s.wrStatus s s := ⟨h, rfl, rfl, rfl, rfl⟩

lemma Agrees.none (h : Agrees s) : Becomes .none s (uartStatusNone s) := by
  unfold uartStatusNone
  split_ifs with hne
  · have hport : Shows { s with wrStatus := .none } := h.port
    refine ⟨⟨(hport.off _).off _, ?_, ?_, by simpa using h.ign⟩, ?_, ?_, ?_, ?_⟩ <;> simp
  · exact (not_not.mp hne) ▸ h.becomes

lemma Agrees.read (h : Agrees s) : Becomes .read s (uartStatusRead s) := by
  unfold uartStatusRead
  split_ifs with hne
  · have hport : Shows { s with wrStatus := .read } := h.port
    refine ⟨⟨(hport.off _).on _, ?_, ?_, by simpa using h.ign⟩, ?_, ?_, ?_, ?_⟩ <;> simp
  · exact (not_not.mp hne) ▸ h.becomes

lemma Agrees.write (h : Agrees s) : Becomes .write s (uartStatusWrite s) := by
  unfold uartStatusWrite
  split_ifs with hne
  · have hport : Shows { s with wrStatus := .write } := h.port
    refine ⟨⟨(hport.off _).on _, ?_, ?_, by simpa using h.ign⟩, ?_, ?_, ?_, ?_⟩ <;> simp
  · exact (not_not.mp hne) ▸ h.becomes

end

/-! ### One event -/

def sets : StatusLed → Event → Bool
  | .ign, .ignition => true
  | .err, .refused => true
  | .urx, .uartReadline false => true
  | .utx, .uartSendline => true
  | _, _ => false

def clears : StatusLed → Event → Bool
  | .ign, .obd2Shutdown | .err, .obd2Shutdown | .err, .replied => true
  | .urx, .uartReadline true | .urx, .uartSendline | .urx, .uartClose => true
  | .utx, .uartReadline _ | .utx, .uartClose => true
  | _, .shutdown => true
  | _, _ => false

section
variable {s : State} {l : StatusLed} {e : Event}

lemma Agrees.on (h : Agrees s) (hl : l = .ign ∨ l = .err) : Agrees (statusLedOn l.mask s) := by
  refine ⟨Shows.on h.port _, ?_, ?_, by simp [h.ign]⟩
  · rcases hl with rfl | rfl <;> simp [h.urx]
  · rcases hl with rfl | rfl <;> simp [h.utx]

lemma Agrees.off (h : Agrees s) (hl : l = .ign ∨ l = .err) : Agrees (statusLedOff l.mask s) := by
  refine ⟨Shows.off h.port _, ?_, ?_, by simp [h.ign]⟩
  · rcases hl with rfl | rfl <;> simp [h.urx]
  · rcases hl with rfl | rfl <;> simp [h.utx]

lemma Agrees.obd2Shutdown (h : Agrees s) : Agrees (obd2Shutdown s) :=
  (h.off (.inl rfl)).off (.inr rfl)

/-- **One event**: every light and the register. -/
structure Steps (s : State) (e : Event) (s' : State) : Prop where
  agrees : Agrees s'
  wanted : ∀ l, wanted l s' = (sets l e || (wanted l s && !clears l e))
  enabled : s'.statusLedEn = (decide (e = .enable) || (s.statusLedEn && !decide (e = .shutdown)))

lemma Becomes.steps {st : UartWrStatus} {s' : State} (h : Becomes st s s')
    (hign : sets .ign e = false ∧ clears .ign e = false)
    (herr : sets .err e = false ∧ clears .err e = false)
    (hen : e ≠ .enable ∧ e ≠ .shutdown)
    (hurx : decide (st = .read) = (sets .urx e || (StatusLeds.wanted .urx s && !clears .urx e)))
    (hutx : decide (st = .write) = (sets .utx e || (StatusLeds.wanted .utx s && !clears .utx e))) :
    Steps s e s' := by
  refine ⟨h.agrees, fun l => ?_, by simp [h.statusLedEn, hen]⟩
  cases l with
  | ign => simp [h.ign, hign]
  | err => simp [h.err, herr]
  | urx => rw [h.agrees.urx, h.wrStatus, hurx]
  | utx => rw [h.agrees.utx, h.wrStatus, hutx]

lemma Agrees.step (h : Agrees s) (e : Event) : Steps s e (step s e) := by
  cases e with
  | enable =>
    refine ⟨⟨shows_enable _ _, ?_, ?_, h.ign⟩, fun l => ?_, rfl⟩
    · exact h.urx
    · exact h.utx
    · cases l <;> simp [StatusLeds.step, sets, clears]
  | uartSendline =>
    exact h.write.steps (by decide) (by decide) (by decide) (by simp [sets, clears])
      (by simp [sets])
  | uartReadline timeout =>
    cases timeout with
    | false =>
      exact h.read.steps (by decide) (by decide) (by decide) (by simp [sets])
        (by simp [sets, clears])
    | true =>
      have hnone := h.read.agrees.none
      have hboth : Becomes .none s (uartStatusNone (uartStatusRead s)) :=
        ⟨hnone.agrees, hnone.wrStatus, hnone.statusLedEn.trans h.read.statusLedEn,
          hnone.ign.trans h.read.ign, hnone.err.trans h.read.err⟩
      exact hboth.steps (by decide) (by decide) (by decide) (by simp [sets, clears])
        (by simp [sets, clears])
  | uartClose =>
    exact h.none.steps (by decide) (by decide) (by decide) (by simp [sets, clears])
      (by simp [sets, clears])
  | replied =>
    refine ⟨h.off (.inr rfl), fun l => ?_, by simp [StatusLeds.step]⟩
    cases l <;> simp [StatusLeds.step, sets, clears]
  | refused =>
    refine ⟨h.on (.inr rfl), fun l => ?_, by simp [StatusLeds.step]⟩
    cases l <;> simp [StatusLeds.step, sets, clears]
  | ignition =>
    have hstep : StatusLeds.step s .ignition = statusLedOn StatusLed.ign.mask s := by
      simp [StatusLeds.step, h.ign]
    rw [hstep]
    refine ⟨h.on (.inl rfl), fun l => ?_, by simp⟩
    cases l <;> simp [sets, clears]
  | obd2Shutdown =>
    refine ⟨h.obd2Shutdown, fun l => ?_, ?_⟩
    · cases l <;> simp [StatusLeds.step, StatusLeds.obd2Shutdown, sets, clears]
    · simp [StatusLeds.step, StatusLeds.obd2Shutdown]
  | shutdown =>
    have hnone := h.obd2Shutdown.none
    refine ⟨⟨shows_enable _ _, ?_, ?_, ?_⟩, fun l => ?_, ?_⟩
    · simp [StatusLeds.step, hnone.wrStatus]
    · simp [StatusLeds.step, hnone.wrStatus]
    · simp [StatusLeds.step, hnone.agrees.ign]
    · cases l <;> simp [StatusLeds.step, sets, clears]
    · simp [StatusLeds.step]

end

/-! ### Runs -/

abbrev run (ev : ℕ → Event) (n : ℕ) : State := exec step initial ev n

section
variable {ev : ℕ → Event} {s : State}

lemma agrees_initial : Agrees initial := ⟨rfl, rfl, rfl, rfl⟩

lemma agrees_run (n : ℕ) : Agrees (run ev n) :=
  exec_inv_all agrees_initial (fun _ e h => (h.step e).agrees) n

lemma Shows.lit (h : Shows s) (l : StatusLed) :
    lit l s = true ↔ s.statusLedEn = true ∧ wanted l s = true := by
  have hlt : l.idx < 4 := by cases l <;> decide
  unfold StatusLeds.lit wanted
  rw [show s.port = _ from h]
  cases s.statusLedEn <;> simp [hlt]

lemma Agrees.lit (h : Agrees s) (l : StatusLed) :
    StatusLeds.lit l s = true ↔ s.statusLedEn = true ∧ wanted l s = true :=
  Shows.lit h.port l

lemma wanted_run (l : StatusLed) (n : ℕ) :
    wanted l (run ev n) = true ↔
      Since (fun u => sets l (ev u) = true) (fun u => clears l (ev u) = true) n := by
  refine @flag_iff _ _ (fun n => wanted l (run ev n) = true) ?_ (fun t => ?_) n
  · show ¬ wanted l initial = true
    cases l <;> decide
  · rw [run, exec_succ, ((agrees_run t).step (ev t)).wanted l]
    simp

lemma enabled_run (n : ℕ) : (run ev n).statusLedEn = true ↔
    Since (fun u => ev u = .enable) (fun u => ev u = .shutdown) n := by
  refine @flag_iff _ _ (fun n => (run ev n).statusLedEn = true) Bool.false_ne_true (fun t => ?_) n
  rw [run, exec_succ, ((agrees_run t).step (ev t)).enabled]
  simp

/-- **What the lights say**, after any events from power-up: a light is lit exactly if the
lights have been enabled and not been shut down since, and the last of its own events was one
that lights it; the two lights of the serial port are never lit together. -/
theorem lit_iff (ev : ℕ → Event) (n : ℕ) :
    (∀ l, lit l (run ev n) = true ↔
      Since (fun u => ev u = .enable) (fun u => ev u = .shutdown) n ∧
        Since (fun u => sets l (ev u) = true) (fun u => clears l (ev u) = true) n) ∧
      ¬ (lit .urx (run ev n) = true ∧ lit .utx (run ev n) = true) := by
  have h := @agrees_run ev n
  refine ⟨fun l => ?_, ?_⟩
  · rw [h.lit, enabled_run, wanted_run]
  · rw [h.lit, h.lit, h.urx, h.utx]
    rintro ⟨⟨-, hread⟩, -, hwrite⟩
    have hstatus := (of_decide_eq_true hread).symm.trans (of_decide_eq_true hwrite)
    cases hstatus

end

end Blastit.Fw.StatusLeds
