import Blastit.Fw.Digits
import Blastit.Fw.Leds
import Blastit.Fw.MainLoop
import Blastit.Fw.StatusLeds

/-!
`shutdown` of `controller.c`, and what the panel shows from then on.

Every driver is left in reset, and a driver in reset is not off: it stands on its first
position, and its PWM counter, held at zero, passes whatever the brightness does not put out
altogether. The register files are not behind the reset, and the processor, which spins in
`rc_reset`, is not reset either.
-/

namespace Blastit.Fw.Shutdown

open Blastit.Lib.Clocked Blastit.Rtl

/-! ### The board -/

/-- The registers before the drivers. -/
structure Ports where
  bcd1Control : BitVec 3
  ssegBrightness : BitVec 8
  ssegResetControl : BitVec 2
  ssegWrVal : BitVec 13
  leds : LedArray → LedBars.Ports
  tcResetControl : BitVec 4
  warnPwmControl : BitVec 2
  warnPwmBrightness : BitVec 8
  uart1ResetControl : BitVec 3
  ledPeriod : BitVec 24

/-- What the reset of the processor leaves in them. -/
def Ports.reset : Ports := ⟨6, 0, 3, 0, fun _ => ⟨0, 3, 0⟩, 15, 2, 0, 7, 0⟩

/-- The drivers of the panel, the registers before them, and the processor as far as it can be
reset; the register of the status lights is with their variables. -/
structure Board where
  ssegarr : SsegArray.State Digits.main
  bars : LedBars.State
  warnPwm : Pwm.State 8
  rc : SelfReset.Board
  ports : Ports
  status : StatusLeds.State

namespace Board

/-- The registers as they read: their reset is asynchronous. -/
def regs (b : Board) : Ports := if b.rc.mcu.resetOut then .reset else b.ports

def lights (b : Board) : StatusLeds.State :=
  if b.rc.mcu.resetOut then { b.status with port := 0 } else b.status

def ssegReset (b : Board) : Bool := b.regs.ssegResetControl.getLsbD 1

def ssegIn (b : Board) : SsegArray.In Digits.main :=
  Digits.port b.regs.ssegWrVal b.regs.ssegBrightness b.regs.ledPeriod

/-- The array as it reads. -/
def sseg (b : Board) : SsegArray.State Digits.main :=
  if b.ssegReset then SsegArray.reset b.ssegarr else b.ssegarr

def ledsIn (b : Board) : LedBars.In :=
  ⟨b.regs.ledPeriod, b.regs.leds .ledArray1, b.regs.leds .ledArray2⟩

def warnReset (b : Board) : Bool := b.regs.warnPwmControl.getLsbD 1

def warn (b : Board) : Pwm.State 8 := if b.warnReset then Pwm.reset else b.warnPwm

/-- One clock edge on which the processor writes nothing. -/
def clock (b : Board) : Board where
  ssegarr :=
    if b.ssegReset then SsegArray.reset (SsegArray.next b.ssegarr b.ssegIn)
    else SsegArray.next b.ssegarr b.ssegIn
  bars := LedBars.next b.bars b.ledsIn
  warnPwm := if b.warnReset then Pwm.reset else Pwm.next b.warnPwm
  rc := b.rc.next
  ports := b.regs
  status := b.lights

/-! What can be seen: a segment is lit where `C` and `C_SSEG` are both driven, and a light of a
bar where `G` and `D` are. -/

def segment (b : Board) (k j : ℕ) : Bool :=
  (SsegArray.oe b.sseg b.ssegIn).getLsbD k && (SsegArray.oSseg b.sseg b.ssegIn).getLsbD j

def row : LedArray → ℕ → ℕ
  | .ledArray1, m => m
  | .ledArray2, m => 3 + m

def light (b : Board) (arr : LedArray) (n m : ℕ) : Bool :=
  LedBars.g b.bars b.ledsIn n && LedBars.d b.bars b.ledsIn (row arr m)

def warning (b : Board) : BitVec 1 :=
  Pwm.out b.warn b.regs.warnPwmBrightness (b.regs.warnPwmControl.setWidth 1)

def bits (b : Board) : LedArray → ℕ → Bool
  | .ledArray1 => b.bars.leds1.enReg
  | .ledArray2 => b.bars.leds2.enReg

end Board

/-! ### The firmware -/

def bcd1ControlTcReset : BitVec 32 := 1 <<< 1
def bcd1ControlReset : BitVec 32 := 1 <<< 2
def ssegCounterReset : BitVec 32 := 1 <<< 0
def ssegReset : BitVec 32 := 1 <<< 1
def warnPwmControlReset : BitVec 32 := 1 <<< 1
def uart1ResetTxTc : BitVec 32 := 1 <<< 0
def uart1ResetRxTc : BitVec 32 := 1 <<< 1
def uart1Reset : BitVec 32 := 1 <<< 2

/-- `TC_RESET_TC1` and so on. -/
def tcReset (i : ℕ) : BitVec 32 := 1 <<< i

def bcdShutdown (p : Ports) : Ports :=
  { p with bcd1Control := (bcd1ControlTcReset ||| bcd1ControlReset).setWidth 3 }

def ssegShutdown (p : Ports) : Ports :=
  { p with ssegResetControl := (ssegCounterReset ||| ssegReset).setWidth 2 }

def ledsShutdown (arr : LedArray) (p : Ports) : Ports :=
  { p with
    leds := Function.update p.leds arr
      { p.leds arr with resetControl := (Leds.ledsCounterReset ||| Leds.ledsReset).setWidth 2 } }

def tcShutdown (p : Ports) : Ports :=
  { p with tcResetControl := (tcReset 0 ||| tcReset 1 ||| tcReset 2 ||| tcReset 3).setWidth 4 }

def warnShutdown (p : Ports) : Ports :=
  { p with warnPwmControl := warnPwmControlReset.setWidth 2 }

def uart1Shutdown (p : Ports) : Ports :=
  { p with uart1ResetControl := (uart1Reset ||| uart1ResetTxTc ||| uart1ResetRxTc).setWidth 3 }

inductive Step
  | write (f : Ports → Ports)
  | status (f : StatusLeds.State → StatusLeds.State)

def Board.step (b : Board) : Step → Board
  | .write f => { b with ports := f b.ports }
  | .status f => { b with status := f b.status }

open StatusLeds in
def obd2Shutdown : List Step :=
  [.status (statusLedOff StatusLed.ign.mask), .status (statusLedOff StatusLed.err.mask)]

/-- `uart_close`; its `uart_flush` only takes its time. -/
def uartClose : List Step := [.status StatusLeds.uartStatusNone, .write uart1Shutdown]

open StatusLeds in
/-- `shutdown`, up to its last call. -/
def shutdown : List Step :=
  obd2Shutdown ++
    [.write bcdShutdown, .write ssegShutdown, .write (ledsShutdown .ledArray2),
      .write (ledsShutdown .ledArray1), .write tcShutdown, .write warnShutdown] ++
    uartClose ++
    [.status (statusLedOff (StatusLed.ign.mask ||| StatusLed.err.mask ||| StatusLed.urx.mask |||
        StatusLed.utx.mask)),
      .status (statusLedEnable false)]

/-- The steps, one after the other; `hold` says how long each of them lasts. -/
def Board.run (hold : ℕ → ℕ) : List Step → Board → Board
  | [], b => b
  | a :: as, b => Board.run (fun k => hold (k + 1)) as (Board.clock^[hold 0 + 1] (b.step a))

/-- `rc_reset`, after which the processor writes nothing. -/
def Board.rcReset (b : Board) : Board := { b with rc := SelfReset.rcReset MainLoop.resetTicks b.rc }

/-- The board `t` clocks after the last write of `shutdown`. -/
def after (hold : ℕ → ℕ) (b : Board) (t : ℕ) : Board :=
  Board.clock^[t] (b.run hold shutdown).rcReset

/-! ### The processor is not reset -/

/-- The reset controller idle and not asked for anything. -/
structure Still (c : SelfReset.Board) : Prop where
  idle : c.Idle
  control : c.rc1Control = 0

/-- The processor runs, now and at every later clock. -/
def Awake (c : SelfReset.Board) : Prop :=
  ∀ n, (SelfReset.Board.next^[n] c).mcu.resetOut = false

section
variable {c : SelfReset.Board}

lemma Still.next (h : Still c) : Still c.next := by
  have hword : c.control = 0 := by
    rw [SelfReset.Board.control, h.control, ite_self]
  have hstart : c.rc1In.start = false := by
    rw [SelfReset.Board.rc1In, hword]
    rfl
  have hlow : c.rc1Reset = false := by
    rw [SelfReset.Board.rc1Reset, ResetController.en, h.idle.rc1]
    rfl
  refine ⟨⟨ResetController.next_idle h.idle.rc1 (Or.inl hstart), ?_⟩, hword⟩
  show SelfReset.McuReset.next c.mcu c.rc1Reset = _
  rw [h.idle.mcu, hlow]
  rfl

lemma Still.iterate (h : Still c) (n : ℕ) : Still (SelfReset.Board.next^[n] c) := by
  induction n with
  | zero => exact h
  | succ n ih =>
    rw [Function.iterate_succ_apply']
    exact ih.next

lemma Still.awake (h : Still c) : Awake c := fun n => by
  rw [(h.iterate n).idle.mcu]
  rfl

lemma run_eq_iterate (counts : BitVec 32) (c : SelfReset.Board) (n : ℕ) :
    SelfReset.run counts c n = SelfReset.Board.next^[n] (SelfReset.rcReset counts c) := by
  induction n with
  | zero => rfl
  | succ n ih =>
    rw [Function.iterate_succ_apply', ← ih]
    rfl

lemma exec_released (n : ℕ) :
    exec SelfReset.McuReset.next .released (fun _ => false) n = .released := by
  induction n with
  | zero => rfl
  | succ n ih =>
    rw [exec_succ, ih]
    rfl

/-- The count of `shutdown` is one that the controller takes for zero. -/
lemma Still.awake_rcReset (h : Still c) : Awake (SelfReset.rcReset MainLoop.resetTicks c) := by
  intro n
  have hlow : (fun u => (SelfReset.run MainLoop.resetTicks c u).rc1Reset) = fun _ => false :=
    funext fun u => SelfReset.rc1Reset_never h.idle (by decide) (by decide) u
  rw [← run_eq_iterate, SelfReset.run_mcu h.idle.mcu, hlow, exec_released]
  rfl

end

/-! ### What stays -/

/-- No command stands in a register. -/
structure Ports.Quiet (p : Ports) : Prop where
  sseg : p.ssegWrVal.getLsbD 12 = false
  leds : ∀ arr, (p.leds arr).wrVal.getLsbD 9 = false

/-- The registers that no step of `shutdown` writes. -/
structure Ports.Same (p q : Ports) : Prop where
  ssegBrightness : q.ssegBrightness = p.ssegBrightness
  ssegWrVal : q.ssegWrVal = p.ssegWrVal
  ledsBrightness : ∀ arr, (q.leds arr).brightness = (p.leds arr).brightness
  ledsWrVal : ∀ arr, (q.leds arr).wrVal = (p.leds arr).wrVal

/-- The register files are what they were. -/
structure Keeps (b b' : Board) : Prop where
  digits : b'.ssegarr.ssegArrReg = b.ssegarr.ssegArrReg
  bits : b'.bits = b.bits

section
variable {p q r : Ports} {b b' b'' : Board} {hold : ℕ → ℕ}

lemma Ports.Same.refl (p : Ports) : p.Same p := ⟨rfl, rfl, fun _ => rfl, fun _ => rfl⟩

lemma Ports.Same.trans (h : p.Same q) (h' : q.Same r) : p.Same r where
  ssegBrightness := h'.ssegBrightness.trans h.ssegBrightness
  ssegWrVal := h'.ssegWrVal.trans h.ssegWrVal
  ledsBrightness arr := (h'.ledsBrightness arr).trans (h.ledsBrightness arr)
  ledsWrVal arr := (h'.ledsWrVal arr).trans (h.ledsWrVal arr)

lemma Ports.Same.quiet (h : p.Same q) (hp : p.Quiet) : q.Quiet where
  sseg := by rw [h.ssegWrVal, hp.sseg]
  leds arr := by rw [h.ledsWrVal, hp.leds]

lemma same_ledsShutdown (arr : LedArray) (p : Ports) : p.Same (ledsShutdown arr p) := by
  refine ⟨rfl, rfl, fun a => ?_, fun a => ?_⟩
  all_goals
    by_cases h : a = arr
    · subst h
      simp [ledsShutdown]
    · simp [ledsShutdown, h]

lemma Keeps.refl (b : Board) : Keeps b b := ⟨rfl, rfl⟩

lemma Keeps.trans (h : Keeps b b') (h' : Keeps b' b'') : Keeps b b'' :=
  ⟨h'.digits.trans h.digits, h'.bits.trans h.bits⟩

lemma regs_eq (h : b.rc.mcu.resetOut = false) : b.regs = b.ports := by
  rw [Board.regs, h]
  rfl

lemma lights_eq (h : b.rc.mcu.resetOut = false) : b.lights = b.status := by
  rw [Board.lights, h]
  rfl

lemma keeps_clock (h : b.rc.mcu.resetOut = false) (hq : b.ports.Quiet) : Keeps b b.clock := by
  constructor
  · have hwr : b.ssegIn.wr = false := by
      rw [Board.ssegIn, regs_eq h]
      exact hq.sseg
    show SsegArray.State.ssegArrReg (if b.ssegReset then _ else _) = _
    split <;> simp [SsegArray.reset, SsegArray.next, hwr]
  · have hsel1 : b.ledsIn.wires1.sel = false := by
      rw [Board.ledsIn, regs_eq h]
      exact hq.leds .ledArray1
    have hsel2 : b.ledsIn.wires2.sel = false := by
      rw [Board.ledsIn, regs_eq h]
      exact hq.leds .ledArray2
    funext arr
    cases arr with
    | ledArray1 =>
      show (LedMatrix.next b.bars.leds1 b.ledsIn.wires1).enReg = _
      rw [LedMatrix.next_enReg, LedMatrix.write, hsel1]
      rfl
    | ledArray2 =>
      show (LedMatrix.next b.bars.leds2 b.ledsIn.wires2).enReg = _
      rw [LedMatrix.next_enReg, LedMatrix.write, hsel2]
      rfl

lemma rc_iterate (b : Board) (n : ℕ) :
    (Board.clock^[n] b).rc = SelfReset.Board.next^[n] b.rc := by
  induction n with
  | zero => rfl
  | succ n ih =>
    rw [Function.iterate_succ_apply', Function.iterate_succ_apply', ← ih]
    rfl

/-- **While the processor writes nothing**, registers and register files stay. -/
lemma clock_iterate (h : Awake b.rc) (hq : b.ports.Quiet) (n : ℕ) :
    (Board.clock^[n] b).ports = b.ports ∧ (Board.clock^[n] b).status = b.status ∧
      Keeps b (Board.clock^[n] b) := by
  induction n with
  | zero => exact ⟨rfl, rfl, .refl b⟩
  | succ n ih =>
    obtain ⟨hports, hstatus, hkeeps⟩ := ih
    have hawake : (Board.clock^[n] b).rc.mcu.resetOut = false := by
      rw [rc_iterate]
      exact h n
    rw [Function.iterate_succ_apply']
    refine ⟨?_, ?_, hkeeps.trans (keeps_clock hawake (by rwa [hports]))⟩
    · exact (regs_eq hawake).trans hports
    · exact (lights_eq hawake).trans hstatus

/-- A step writes none of the registers that stay. -/
def Step.Tame : Step → Prop
  | .write f => ∀ p : Ports, p.Same (f p)
  | .status _ => True

def Step.ports : Step → Ports → Ports
  | .write f => f
  | .status _ => id

def Step.lights : Step → StatusLeds.State → StatusLeds.State
  | .write _ => id
  | .status f => f

lemma step_spec (b : Board) (a : Step) : (b.step a).ports = a.ports b.ports ∧
    (b.step a).status = a.lights b.status ∧ (b.step a).rc = b.rc ∧ Keeps b (b.step a) := by
  cases a <;> exact ⟨rfl, rfl, rfl, rfl, rfl⟩

lemma Step.Tame.same {a : Step} (h : a.Tame) (p : Ports) : p.Same (a.ports p) := by
  cases a with
  | write f => exact h p
  | status f => exact .refl p

/-- **A run of tame steps**, however long each takes. -/
lemma run_spec {l : List Step} (hl : ∀ a ∈ l, a.Tame) (hc : Still b.rc) (hq : b.ports.Quiet) :
    (b.run hold l).ports = l.foldl (fun p a => a.ports p) b.ports ∧
      (b.run hold l).status = l.foldl (fun s a => a.lights s) b.status ∧
      Still (b.run hold l).rc ∧ b.ports.Same (b.run hold l).ports ∧ Keeps b (b.run hold l) := by
  induction l generalizing b hold with
  | nil => exact ⟨rfl, rfl, hc, .refl _, .refl b⟩
  | cons a l ih =>
    obtain ⟨hports, hstatus, hrc, hkeeps⟩ := step_spec b a
    have hsame : b.ports.Same (b.step a).ports := by
      rw [hports]
      exact (hl a List.mem_cons_self).same b.ports
    have hstill : Still (b.step a).rc := hrc ▸ hc
    obtain ⟨hp, hs, hk⟩ := clock_iterate hstill.awake (hsame.quiet hq) (hold 0 + 1)
    have hnext : Still (Board.clock^[hold 0 + 1] (b.step a)).rc := by
      rw [rc_iterate]
      exact hstill.iterate _
    have hquiet : (Board.clock^[hold 0 + 1] (b.step a)).ports.Quiet := by
      rw [hp]
      exact hsame.quiet hq
    obtain ⟨hp', hs', hc', hsame', hk'⟩ := @ih _ (fun k => hold (k + 1))
      (fun a' ha' => hl a' (List.mem_cons_of_mem a ha')) hnext hquiet
    refine ⟨?_, ?_, hc', ?_, (hkeeps.trans hk).trans hk'⟩
    · rw [List.foldl_cons, ← hports, ← hp]
      exact hp'
    · rw [List.foldl_cons, ← hstatus, ← hs]
      exact hs'
    · rw [hp] at hsame'
      exact hsame.trans hsame'

lemma tame_shutdown : ∀ a ∈ shutdown, a.Tame := by
  have hown : ∀ f : Ports → Ports, (∀ p, (f p).ssegBrightness = p.ssegBrightness ∧
      (f p).ssegWrVal = p.ssegWrVal ∧ (f p).leds = p.leds) → ∀ p : Ports, p.Same (f p) := by
    intro f hf p
    obtain ⟨h1, h2, h3⟩ := hf p
    exact ⟨h1, h2, fun _ => by rw [h3], fun _ => by rw [h3]⟩
  simp only [shutdown, obd2Shutdown, uartClose, List.cons_append, List.nil_append,
    List.forall_mem_cons, Step.Tame, true_and, List.not_mem_nil,
    false_imp_iff, implies_true, and_true]
  exact ⟨hown _ fun _ => ⟨rfl, rfl, rfl⟩, hown _ fun _ => ⟨rfl, rfl, rfl⟩, same_ledsShutdown _,
    same_ledsShutdown _, hown _ fun _ => ⟨rfl, rfl, rfl⟩, hown _ fun _ => ⟨rfl, rfl, rfl⟩,
    hown _ fun _ => ⟨rfl, rfl, rfl⟩⟩

end

/-! ### What burns -/

/-- Everything behind a reset is in it. -/
structure Ports.Held (p : Ports) : Prop where
  bcd1Control : p.bcd1Control = 6
  ssegResetControl : p.ssegResetControl = 3
  leds : ∀ arr, (p.leds arr).resetControl = 3
  tcResetControl : p.tcResetControl = 15
  warnPwmControl : p.warnPwmControl = 2
  uart1ResetControl : p.uart1ResetControl = 7

lemma held_shutdown (p : Ports) : (shutdown.foldl (fun p a => a.ports p) p).Held := by
  refine ⟨rfl, rfl, fun arr => ?_, rfl, rfl, rfl⟩
  cases arr <;> rfl

/-- The steps are those of the status lights. -/
lemma status_shutdown (s : StatusLeds.State) :
    shutdown.foldl (fun s a => a.lights s) s = StatusLeds.step s .shutdown := rfl

/-- The first light of a bar is enabled, and the bar not put out. -/
def Board.First (b : Board) (arr : LedArray) : Prop :=
  b.bits arr 0 = true ∧ (b.ports.leds arr).brightness ≠ 0

def selected (ledIdx : BitVec 3) : LedArray := if ledIdx = 0 then .ledArray1 else .ledArray2

/-- What board `e` shows of board `b`: one digit and one light of each bar, without a break,
and nothing else. -/
structure Burns (b : Board) (ledIdx : BitVec 3) (e : Board) : Prop where
  segment : ∀ k j, e.segment k j = true ↔
    k = 0 ∧ b.ports.ssegBrightness ≠ 0 ∧ (b.ssegarr.ssegArrReg 0).getLsbD j = true
  light : ∀ arr, ∀ n < 10, ∀ m < 3, (e.light arr n m = true ↔
    n = 0 ∧ m = 0 ∧ b.First arr ∧ b.First (selected ledIdx))
  warning : e.warning = 0
  status : ∀ l, StatusLeds.lit l e.lights = false

section
variable {b e : Board}

lemma passes_reset {N : ℕ} (w : BitVec N) :
    Pwm.passes (Pwm.reset : Pwm.State N) w = true ↔ w ≠ 0 := by
  rw [Pwm.passes_iff, and_iff_left]
  exact Nat.zero_le _

lemma lit_of_reset {s : LedMatrix.State LedBars.params} {i : LedMatrix.In LedBars.params}
    (hr : i.reset = true) :
    (LedMatrix.lit s i = true ↔ s.enReg 0 = true ∧ i.brightness ≠ 0) ∧
      (LedMatrix.visible s i).nIReg.toNat = 0 ∧ (LedMatrix.visible s i).mIReg.toNat = 0 ∧
      LedMatrix.doneTick s i = false := by
  have hvis : LedMatrix.visible s i = LedMatrix.reset s := by
    rw [LedMatrix.visible, if_pos hr]
  refine ⟨?_, ?_, ?_, ?_⟩
  · rw [LedMatrix.lit, hvis, Bool.and_eq_true]
    exact and_congr_right fun _ => passes_reset i.brightness
  · rw [hvis]
    rfl
  · rw [hvis]
    rfl
  · rw [LedMatrix.doneTick, hvis]
    rfl

lemma ledIdxNext_of_reset {s : LedBars.State} {i : LedBars.In} (h1 : i.wires1.reset = true)
    (h2 : i.wires2.reset = true) : LedBars.ledIdxNext s i = s.ledIdxReg := by
  have hd1 : LedBars.done1 s i = false := (lit_of_reset h1).2.2.2
  have hd2 : LedBars.done2 s i = false := (lit_of_reset h2).2.2.2
  simp [LedBars.ledIdxNext, hd1, hd2]

lemma segment_of_held (hh : e.ports.Held) (hregs : e.regs = e.ports) (k j : ℕ) :
    e.segment k j = true ↔
      k = 0 ∧ e.ports.ssegBrightness ≠ 0 ∧ (e.ssegarr.ssegArrReg 0).getLsbD j = true := by
  have hsseg : e.sseg = SsegArray.reset e.ssegarr := by
    rw [Board.sseg, Board.ssegReset, hregs, hh.ssegResetControl]
    rfl
  have hcur : SsegArray.curSseg e.sseg = e.ssegarr.ssegArrReg 0 := by
    rw [hsseg]
    rfl
  have hidx : e.sseg.oeIReg.toNat = 0 := by
    rw [hsseg]
    rfl
  have hpass : Pwm.passes e.sseg.pwm1 e.ssegIn.brightness = true ↔
      e.ports.ssegBrightness ≠ 0 := by
    rw [hsseg, Board.ssegIn, hregs]
    exact passes_reset e.ports.ssegBrightness
  rw [Board.segment, Bool.and_eq_true, SsegArray.oe_iff, hpass, hcur, hidx]
  constructor
  · rintro ⟨⟨hb, -, -, hk⟩, hj⟩
    rw [SsegArray.oSseg_eq (hpass.mpr hb), hcur] at hj
    exact ⟨hk, hb, hj⟩
  · rintro ⟨rfl, hb, hj⟩
    have hlit : e.ssegarr.ssegArrReg 0 ≠ 0 := by
      intro hzero
      rw [hzero] at hj
      simp at hj
    have hpos : 0 < e.ssegarr.ssegArrReg 0 := by
      rw [BitVec.lt_def]
      exact Nat.pos_of_ne_zero fun h0 => hlit (BitVec.eq_of_toNat_eq h0)
    refine ⟨⟨hb, hpos, by decide, rfl⟩, ?_⟩
    rw [SsegArray.oSseg_eq (hpass.mpr hb), hcur]
    exact hj

lemma light_of_held (hh : e.ports.Held) (hregs : e.regs = e.ports) (arr : LedArray) {n m : ℕ}
    (hn : n < 10) (hm : m < 3) :
    e.light arr n m = true ↔
      n = 0 ∧ m = 0 ∧ e.First arr ∧ e.First (selected e.bars.ledIdxReg) := by
  have hr1 : e.ledsIn.wires1.reset = true := by
    show (e.regs.leds .ledArray1).resetControl.getLsbD 1 = true
    rw [hregs, hh.leds]
    rfl
  have hr2 : e.ledsIn.wires2.reset = true := by
    show (e.regs.leds .ledArray2).resetControl.getLsbD 1 = true
    rw [hregs, hh.leds]
    rfl
  obtain ⟨hlit1, hcol1, hrow1, -⟩ := @lit_of_reset e.bars.leds1 _ hr1
  obtain ⟨hlit2, hcol2, hrow2, -⟩ := @lit_of_reset e.bars.leds2 _ hr2
  have hb1 : e.ledsIn.wires1.brightness = (e.ports.leds .ledArray1).brightness := by
    show (e.regs.leds .ledArray1).brightness = _
    rw [hregs]
  have hb2 : e.ledsIn.wires2.brightness = (e.ports.leds .ledArray2).brightness := by
    show (e.regs.leds .ledArray2).brightness = _
    rw [hregs]
  rw [hb1] at hlit1
  rw [hb2] at hlit2
  have hg : LedBars.g e.bars e.ledsIn n = true ↔
      e.First (selected e.bars.ledIdxReg) ∧ n = 0 := by
    rw [LedBars.g_iff hn, ledIdxNext_of_reset hr1 hr2, selected]
    split
    · rw [LedBars.lit1, hlit1, LedBars.col1, hcol1]
      rfl
    · rw [LedBars.lit2, hlit2, LedBars.col2, hcol2]
      rfl
  have hd : LedBars.d e.bars e.ledsIn (Board.row arr m) = true ↔ e.First arr ∧ m = 0 := by
    cases arr with
    | ledArray1 =>
      rw [Board.row, LedBars.d_iff1 hm, LedBars.lit1, hlit1, LedBars.row1, hrow1]
      rfl
    | ledArray2 =>
      rw [Board.row, LedBars.d_iff2 hm, LedBars.lit2, hlit2, LedBars.row2, hrow2]
      rfl
  rw [Board.light, Bool.and_eq_true, hg, hd]
  exact ⟨fun h => ⟨h.1.2, h.2.2, h.2.1, h.1.1⟩, fun h => ⟨⟨h.2.2.2, h.1⟩, h.2.2.1, h.2.1⟩⟩

lemma warning_of_held (hh : e.ports.Held) (hregs : e.regs = e.ports) : e.warning = 0 := by
  have hin : e.regs.warnPwmControl.setWidth 1 = 0 := by
    rw [hregs, hh.warnPwmControl]
    rfl
  rw [Board.warning, hin, Pwm.out, ite_self]

/-- What stays is what decides. -/
lemma first_iff (hsame : b.ports.Same e.ports) (hkeeps : Keeps b e) (arr : LedArray) :
    e.First arr ↔ b.First arr := by
  rw [Board.First, Board.First, hkeeps.bits, hsame.ledsBrightness]

/-- **What a board with everything in reset shows.** -/
lemma burns_of_held (hh : e.ports.Held) (hawake : e.rc.mcu.resetOut = false)
    (hsame : b.ports.Same e.ports) (hkeeps : Keeps b e)
    (hstatus : ∀ l, StatusLeds.lit l e.status = false) : Burns b e.bars.ledIdxReg e := by
  have hregs := regs_eq hawake
  refine ⟨fun k j => ?_, fun arr n hn m hm => ?_, warning_of_held hh hregs, fun l => ?_⟩
  · rw [segment_of_held hh hregs, hsame.ssegBrightness, hkeeps.digits]
  · rw [light_of_held hh hregs arr hn hm, first_iff hsame hkeeps, first_iff hsame hkeeps]
  · rw [lights_eq hawake]
    exact hstatus l

lemma ledIdxReg_iterate (hh : e.ports.Held) (h : Awake e.rc) (hq : e.ports.Quiet) (t : ℕ) :
    (Board.clock^[t] e).bars.ledIdxReg = e.bars.ledIdxReg := by
  induction t with
  | zero => rfl
  | succ t ih =>
    have hawake : (Board.clock^[t] e).rc.mcu.resetOut = false := by
      rw [rc_iterate]
      exact h t
    have hports := (clock_iterate h hq t).1
    have hregs : (Board.clock^[t] e).regs = e.ports := (regs_eq hawake).trans hports
    rw [Function.iterate_succ_apply', ← ih]
    refine ledIdxNext_of_reset ?_ ?_
    · show ((Board.clock^[t] e).regs.leds .ledArray1).resetControl.getLsbD 1 = true
      rw [hregs, hh.leds]
      rfl
    · show ((Board.clock^[t] e).regs.leds .ledArray2).resetControl.getLsbD 1 = true
      rw [hregs, hh.leds]
      rfl

/-- **`shutdown` does not put the panel out**: whatever was on it, and however long the calls
take, from the last write on the first digit of the array burns without a break, and so does
the first light of each bar, if they were on and not at brightness zero; nothing else does,
everything is in reset, and the processor is never reset. -/
theorem burns_after (hc : Still b.rc) (hq : b.ports.Quiet) (hold : ℕ → ℕ) (t : ℕ) :
    Burns b (after hold b 0).bars.ledIdxReg (after hold b t) ∧ (after hold b t).ports.Held ∧
      (after hold b t).rc.mcu.resetOut = false := by
  obtain ⟨hports, hstatus, hstill, hsame, hkeeps⟩ :=
    @run_spec b hold shutdown tame_shutdown hc hq
  have hheld : (after hold b 0).ports.Held := by
    show (b.run hold shutdown).ports.Held
    rw [hports]
    exact held_shutdown b.ports
  have hawake : Awake (after hold b 0).rc := hstill.awake_rcReset
  have hquiet : (after hold b 0).ports.Quiet := hsame.quiet hq
  obtain ⟨hp, hs, hk⟩ := clock_iterate hawake hquiet t
  have hheld' : (after hold b t).ports.Held := by
    show (Board.clock^[t] (after hold b 0)).ports.Held
    rwa [hp]
  have hawake' : (after hold b t).rc.mcu.resetOut = false := by
    show (Board.clock^[t] (after hold b 0)).rc.mcu.resetOut = false
    rw [rc_iterate]
    exact hawake t
  refine ⟨?_, hheld', hawake'⟩
  rw [← ledIdxReg_iterate hheld hawake hquiet t]
  have hstart : Keeps b (after hold b 0) := ⟨hkeeps.digits, hkeeps.bits⟩
  have hsame' : b.ports.Same (after hold b t).ports := by
    show b.ports.Same (Board.clock^[t] (after hold b 0)).ports
    rw [hp]
    exact hsame
  refine burns_of_held hheld' hawake' hsame' (hstart.trans hk) fun l => ?_
  have hoff : (after hold b t).status = StatusLeds.step b.status .shutdown :=
    hs.trans (hstatus.trans (status_shutdown b.status))
  show StatusLeds.lit l (after hold b t).status = false
  rw [hoff]
  simp [StatusLeds.lit, StatusLeds.step, StatusLeds.statusLedEnable]

end

/-- A board that shows a one on its first digit, with the first light of the first bar. -/
def glowing : Board where
  ssegarr := ⟨fun k => if k = 0 then 0b0000110 else 0, 3, Pwm.reset, ModMCounter.reset⟩
  bars :=
    ⟨⟨fun k => decide (k = 0), 4, 4, 0, Pwm.reset, ModMCounter.reset⟩,
      ⟨fun _ => false, 2, 2, 0, Pwm.reset, ModMCounter.reset⟩, 0⟩
  warnPwm := ⟨17⟩
  rc := SelfReset.running
  ports :=
    ⟨0, 1, 0, 0, fun _ => ⟨0x40, 0, 0⟩, 0, 1, 0xff, 0, 8000⟩
  status := ⟨5, true, .read, true, 5⟩

theorem burns_after_glowing :
    Burns glowing (after (fun _ => 2) glowing 0).bars.ledIdxReg (after (fun _ => 2) glowing 9) ∧
      (after (fun _ => 2) glowing 9).ports.Held ∧
      (after (fun _ => 2) glowing 9).rc.mcu.resetOut = false :=
  burns_after ⟨SelfReset.idle_running, rfl⟩ ⟨rfl, fun arr => by cases arr <;> rfl⟩ (fun _ => 2) 9

end Blastit.Fw.Shutdown
