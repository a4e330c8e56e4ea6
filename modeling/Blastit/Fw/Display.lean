import Blastit.Fw.Panel
import Blastit.Lib.Clocked
import Mathlib.Data.Rat.Floor

/-!
`display.c`: the display tasks.

A `float` is an exact rational and its cast to an integer drops the fraction. The list of
blinkers is kept at the level `display.h` documents it: adding a member changes nothing,
compacting removes the freed ones. What the links in memory make of that is not looked at
here.
-/

namespace Blastit.Fw.Display

open Blastit.Fw.Panel Blastit.Lib.Clocked

/-! ### Data -/

/-- `display_params_t`. -/
structure DisplayParams where
  boost : ℚ
  afr : ℚ
  oilTemp : ℚ
  coolantTemp : ℚ
  intakeTemp : ℚ
  load : ℚ
  deriving DecidableEq, Repr

inductive WarningFlag
  | afrWarn | boostWarn | oilWarn | coolantWarn | intakeWarn
  deriving DecidableEq, Repr

/-- The position of the enumerator's one bit. -/
def WarningFlag.idx : WarningFlag → ℕ
  | .afrWarn => 0
  | .boostWarn => 1
  | .oilWarn => 2
  | .coolantWarn => 3
  | .intakeWarn => 4

def WarningFlag.val (f : WarningFlag) : BitVec 32 := BitVec.twoPow 32 f.idx

/-- `readout_task_data`, as `display_init` fills it. -/
structure ReadoutTask where
  code : BitVec 8
  flag : WarningFlag
  warnL : ℚ
  warnU : ℚ
  value : DisplayParams → ℚ
  ssegIdx : BitVec 32

def afrReadoutTask : ReadoutTask := ⟨0xa, .afrWarn, 11, 18, DisplayParams.afr, 0⟩
def oilReadoutTask : ReadoutTask := ⟨0x0, .oilWarn, 160, 265, DisplayParams.oilTemp, 5⟩
def coolantReadoutTask : ReadoutTask := ⟨0xc, .coolantWarn, 160, 240, DisplayParams.coolantTemp, 10⟩
def intakeReadoutTask : ReadoutTask := ⟨0x1, .intakeWarn, 0, 170, DisplayParams.intakeTemp, 15⟩

def boostMin : ℚ := -10
def boostMax : ℚ := 10
def afrWarnL : ℚ := 11
def afrWarnU : ℚ := 18
def afrMinLoad : ℚ := 25

/-- `blinker_data`; `done` is the flag of its link. -/
structure BlinkerData where
  done : BitVec 8
  dvsr : BitVec 8
  dutyCycle : BitVec 8
  count : BitVec 16
  sign : BitVec 8
  deriving DecidableEq, Repr

/-- The owners of a `blinker_data`. -/
inductive Blinker
  | mil | boost | afr
  deriving DecidableEq, Repr

/-- The variables of `display.c`: `bdata` holds the `bdata` of the three owners, `flags` is
`mil_task.flags`, `sdata` the members of `pwm_update_task.sdata`. -/
structure State where
  displayParams : DisplayParams
  isDaylight : Bool
  flags : BitVec 32
  bdata : Blinker → BlinkerData
  sdata : List Blinker
  panel : Panel

/-- A cast of a `float` to an integer; where the result does not fit, the words below wrap. -/
def trunc (q : ℚ) : ℤ := q.num.tdiv q.den

/-- `NIGHTTIME_DVSR`, computed as an integer. -/
def nighttimeDvsr : ℕ := 2 / 3

/-! ### Warnings -/

/-- `warning_set` on the flag word: whether it changed it, and the word it leaves. -/
def warningSet (flags : BitVec 32) (flag : WarningFlag) : Bool × BitVec 32 :=
  if flags &&& flag.val = 0 then (true, flags ||| flag.val) else (false, flags)

/-- `warning_clear`; the test is that of `warning_set`. -/
def warningClear (flags : BitVec 32) (flag : WarningFlag) : Bool × BitVec 32 :=
  if flags &&& flag.val = 0 then (true, flags &&& ~~~flag.val) else (false, flags)

/-! ### Blinkers -/

/-- `display_slink_add` on a blinker, as documented. -/
def slinkAdd (b : Blinker) (s : State) : State :=
  if b ∈ s.sdata then s
  else
    { s with
      sdata := s.sdata ++ [b]
      bdata := Function.update s.bdata b { s.bdata b with done := 0 } }

/-- `display_slink_compact` on the blinkers, as documented. -/
def slinkCompact (s : State) : State :=
  { s with sdata := s.sdata.filter fun b => (s.bdata b).done = 0 }

/-- One pass of the loop of `blinker_update` over a blinker that is not done. -/
def BlinkerData.advance (d : BlinkerData) : BlinkerData :=
  let d := { d with count := d.count + 1 }
  let d :=
    if d.count = d.dvsr.setWidth 16 then
      if d.sign = 0 then { d with count := 0, dutyCycle := d.dutyCycle + 1 }
      else { d with count := 0, dutyCycle := d.dutyCycle - 1 }
    else d
  if d.dutyCycle = 100 then { d with sign := 1 }
  else if d.dutyCycle = 0 then { d with sign := 0 }
  else d

def blinkerVisit (s : State) (b : Blinker) : State :=
  if (s.bdata b).done = 0 then { s with bdata := Function.update s.bdata b (s.bdata b).advance }
  else s

def blinkerInit (s : State) : State := { s with sdata := [] }

def blinkerUpdate (s : State) : State := slinkCompact (s.sdata.foldl blinkerVisit s)

def blinkerStart (b : Blinker) (s : State) : State :=
  slinkAdd b
    { s with bdata := Function.update s.bdata b { s.bdata b with count := 0, sign := 0 } }

def blinkerStop (b : Blinker) (s : State) : State :=
  { s with bdata := Function.update s.bdata b { s.bdata b with done := 1 } }

/-- The brightness a blinker stands for, as the byte the register takes. -/
def blinkBrightness (d : BlinkerData) (isDaylight : Bool) : BitVec 8 :=
  let u := warnBrightnessMax * d.dutyCycle.toNat / 100
  BitVec.ofNat 8 (if isDaylight then u else u * nighttimeDvsr)

/-! ### Tasks -/

def daylightInit (daylight : Bool) (s : State) : State := { s with isDaylight := daylight }

/-- `daylight` is what `is_daylight` returns. -/
def daylightUpdate (daylight : Bool) (s : State) : State :=
  if daylight = s.isDaylight then s
  else
    { s with
      panel := s.panel.ssegSetBrightness
        (if daylight then ssegBrightnessMax
          else BitVec.ofNat 8 (ssegBrightnessMax.toNat * nighttimeDvsr))
      isDaylight := daylight }

def readoutDigits : ℕ := 5

def readoutInit (t : ReadoutTask) (s : State) : State :=
  { s with
    panel := (List.range (readoutDigits - 1)).foldl
      (fun p k => p.ssegSetBcd (t.ssegIdx + BitVec.ofNat 32 (k + 1)) 0 0)
      (s.panel.ssegSetBcd t.ssegIdx (ssegValEn ||| ssegDp) (t.code.setWidth 32)) }

/-- The loop over leading zeros: at most `n` digits are blanked from position `i` on. The
digits left, the next position and the panel. -/
def readoutChop (t : ReadoutTask) : ℕ → List (BitVec 8) → ℕ → Panel → List (BitVec 8) × ℕ × Panel
  | n + 1, d :: ds, i, p =>
    if d = 0 then readoutChop t n ds (i + 1) (p.ssegSetBcd (t.ssegIdx + BitVec.ofNat 32 i) 0 0)
    else (d :: ds, i, p)
  | _, ds, i, p => (ds, i, p)

/-- The loop over the rest of the digits. -/
def readoutPrint (t : ReadoutTask) (signIdx : ℕ) : List (BitVec 8) → ℕ → Panel → Panel
  | [], _, p => p
  | d :: ds, i, p =>
    if i < readoutDigits then
      readoutPrint t signIdx ds (i + 1)
        (p.ssegSetBcd (t.ssegIdx + BitVec.ofNat 32 i)
          (if i = signIdx then ssegValEn ||| ssegDp else ssegValEn) (d.setWidth 32))
    else p

/-- What `readout_update` shows. -/
def readoutShow (bcd1 : BitVec 32 → BitVec 32) (t : ReadoutTask) (v : ℚ) (p : Panel) : Panel :=
  let sign := decide (v < 0)
  let dec := BitVec.ofInt 32 (trunc (if sign then -(v * 10) else v * 10))
  let bcd := bcdConvert bcd1 dec
  let p := if sign then p.ssegSetBcd (t.ssegIdx + 1) (ssegValEn ||| ssegSign) 0 else p
  let i := if sign then 2 else 1
  let signIdx := if sign then readoutDigits - 1 else readoutDigits - 2
  let (ds, i, p) := readoutChop t 2 bcd i p
  readoutPrint t signIdx ds i p

def readoutUpdate (bcd1 : BitVec 32 → BitVec 32) (t : ReadoutTask) (s : State) : State :=
  let v := t.value s.displayParams
  { s with
    panel := readoutShow bcd1 t v s.panel
    flags :=
      if ¬(t.warnL ≤ v ∧ v ≤ t.warnU) then (warningSet s.flags t.flag).2
      else (warningClear s.flags t.flag).2 }

def warningInit (s : State) : State :=
  { s with
    bdata := Function.update s.bdata .mil { s.bdata .mil with dvsr := 2 }
    flags := 0 }

/-- The first half of `warning_update`: switching the lamp. -/
def warningSwitch (s : State) : State :=
  if s.flags ≠ 0 ∧ (s.bdata .mil).done = 1 then
    let s := blinkerStart .mil s
    { s with panel := s.panel.warnSetEn true }
  else if (s.bdata .mil).done = 0 then
    let s := blinkerStop .mil s
    { s with panel := s.panel.warnSetEn false }
  else s

/-- The second half: its brightness. -/
def warningShine (s : State) : State :=
  if (s.bdata .mil).done = 0 then
    { s with panel := s.panel.warnSetBrightness (blinkBrightness (s.bdata .mil) s.isDaylight) }
  else s

def warningUpdate (s : State) : State := warningShine (warningSwitch s)

def boostInit (s : State) : State :=
  { s with bdata := Function.update s.bdata .boost { s.bdata .boost with dvsr := 1 } }

/-- The flag word after the first part of `boost_update`. -/
def boostFlags (boost : ℚ) (flags : BitVec 32) : BitVec 32 :=
  if ¬(boostMin ≤ boost ∧ boost ≤ boostMax) ∧ flags &&& WarningFlag.boostWarn.val = 0 then
    (warningSet flags .boostWarn).2
  else if flags &&& WarningFlag.boostWarn.val ≠ 0 then (warningClear flags .boostWarn).2
  else flags

/-- `boost_idx`, after the guard that follows it. -/
def boostIdx (boost : ℚ) : ℤ :=
  let boost := if boost < boostMin then boostMin else boost
  let boost := if boostMax < boost then boostMax else boost
  let idx := trunc ((trunc (boost - boostMin) : ℚ) * ledsMax / (boostMax - boostMin))
  if idx < ledsMax then ledsMax else idx

/-- `for (i = lo; i < hi; ++i) leds_enable_led(arr, i, en)`. -/
def ledsFill (arr : LedArray) (lo hi : ℤ) (en : Bool) (p : Panel) : Panel :=
  (List.range (hi - lo).toNat).foldl
    (fun p k => p.ledsEnableLed arr (BitVec.ofInt 32 (lo + k)) en) p

def barBrightness (modulate : Bool) (d : BlinkerData) (isDaylight : Bool) : BitVec 8 :=
  if modulate then blinkBrightness d isDaylight
  else if isDaylight then ledsBrightnessMax
  else BitVec.ofNat 8 (ledsBrightnessMax.toNat * nighttimeDvsr)

def boostUpdate (s : State) : State :=
  let boost := s.displayParams.boost
  let flags := boostFlags boost s.flags
  let modulate := decide (flags &&& WarningFlag.boostWarn.val ≠ 0)
  let idx := boostIdx boost
  let p := ledsFill .ledArray1 0 idx true s.panel
  let p := ledsFill .ledArray1 idx ledsMax false p
  { s with
    flags := flags
    panel := p.ledsSetBrightness .ledArray1 (barBrightness modulate (s.bdata .boost) s.isDaylight) }

def afrInit (s : State) : State :=
  { s with bdata := Function.update s.bdata .afr { s.bdata .afr with dvsr := 1 } }

/-- The ends of the AFR bar, both lit. -/
def afrEnds (afr load : ℚ) : ℤ × ℤ :=
  let afr := if afr < afrWarnL then afrWarnL else afr
  let afr := if afrWarnU < afr then afrWarnU else afr
  let ends : ℤ × ℤ :=
    if afrMinLoad ≤ load then
      let fin := ⌈(ledsMax : ℚ) * ((afr - 56 / 5) / 7)⌉
      let fin := if fin < 0 then 0 else fin
      (ledsMax / 2, if ledsMax < fin then ledsMax else fin)
    else (0, ledsMax)
  if ends.2 < ends.1 then (ends.2, ends.1) else ends

def afrUpdate (s : State) : State :=
  let load := s.displayParams.load
  let modulate := decide (s.flags &&& WarningFlag.afrWarn.val ≠ 0 ∧ afrMinLoad ≤ load)
  let ends := afrEnds s.displayParams.afr load
  let p := (List.range ledsMax).foldl
    (fun p (i : ℕ) => p.ledsEnableLed .ledArray2 (BitVec.ofNat 32 i)
      (decide (ends.1 ≤ (i : ℤ) ∧ (i : ℤ) ≤ ends.2))) s.panel
  { s with
    panel := p.ledsSetBrightness .ledArray2 (barBrightness modulate (s.bdata .afr) s.isDaylight) }

/-! ### Frames -/

/-- The tasks, in the order `display_init` adds them. -/
inductive Task
  | daylight | pwmUpdate | afrReadout | oilReadout | coolantReadout | intakeReadout
  | mil | boost | afr
  deriving DecidableEq, Repr

def tasks : List Task :=
  [.daylight, .pwmUpdate, .afrReadout, .oilReadout, .coolantReadout, .intakeReadout,
    .mil, .boost, .afr]

def Task.init (daylight : Bool) : Task → State → State
  | .daylight => daylightInit daylight
  | .pwmUpdate => blinkerInit
  | .afrReadout => readoutInit afrReadoutTask
  | .oilReadout => readoutInit oilReadoutTask
  | .coolantReadout => readoutInit coolantReadoutTask
  | .intakeReadout => readoutInit intakeReadoutTask
  | .mil => warningInit
  | .boost => boostInit
  | .afr => afrInit

/-- The update routines; every one of them returns `false`. -/
def Task.update (bcd1 : BitVec 32 → BitVec 32) (daylight : Bool) : Task → State → State
  | .daylight => daylightUpdate daylight
  | .pwmUpdate => blinkerUpdate
  | .afrReadout => readoutUpdate bcd1 afrReadoutTask
  | .oilReadout => readoutUpdate bcd1 oilReadoutTask
  | .coolantReadout => readoutUpdate bcd1 coolantReadoutTask
  | .intakeReadout => readoutUpdate bcd1 intakeReadoutTask
  | .mil => warningUpdate
  | .boost => boostUpdate
  | .afr => afrUpdate

def zeroed (panel : Panel) : State where
  displayParams := ⟨0, 0, 0, 0, 0, 0⟩
  isDaylight := false
  flags := 0
  bdata := fun _ => ⟨0, 0, 0, 0, 0⟩
  sdata := []
  panel := panel

/-- The init routines, in list order, on a panel whose warning register is initialised. -/
def initial (daylight : Bool) (panel : Panel) : State :=
  tasks.foldl (fun s t => t.init daylight s) (zeroed panel.warnInit)

/-- What a frame finds: the parameters, and the daylight sensor. -/
structure Frame where
  displayParams : DisplayParams
  daylight : Bool

def frame (bcd1 : BitVec 32 → BitVec 32) (s : State) (f : Frame) : State :=
  tasks.foldl (fun s t => t.update bcd1 f.daylight s) { s with displayParams := f.displayParams }

lemma trunc_of_nonneg {q : ℚ} (h : 0 ≤ q) : trunc q = (⌊q⌋₊ : ℤ) := by
  rw [Int.natCast_floor_eq_floor h, Rat.floor_def', trunc,
    Int.tdiv_eq_ediv_of_nonneg (Rat.num_nonneg.mpr h)]

/-! ### What the routines leave alone -/

section
variable {α : Type*} {f : Panel → α} {p : Panel}

lemma ledsFill_keeps {arr : LedArray} {lo hi : ℤ} {en : Bool}
    (h : ∀ p addr, f (p.ledsEnableLed arr addr en) = f p) : f (ledsFill arr lo hi en p) = f p := by
  unfold ledsFill
  exact foldl_keeps (fun p _ => h p _) p _

variable (h : ∀ p addr flags val, f (p.ssegSetBcd addr flags val) = f p)
include h

lemma readoutChop_keeps (t : ReadoutTask) (n : ℕ) (ds : List (BitVec 8)) (i : ℕ) (p : Panel) :
    f (readoutChop t n ds i p).2.2 = f p := by
  fun_induction readoutChop t n ds i p with
  | case1 n ds i p ih => exact ih.trans (h ..)
  | case2 | case3 => rfl

lemma readoutPrint_keeps (t : ReadoutTask) (signIdx : ℕ) (ds : List (BitVec 8)) (i : ℕ) (p : Panel) :
    f (readoutPrint t signIdx ds i p) = f p := by
  fun_induction readoutPrint t signIdx ds i p with
  | case1 | case3 => rfl
  | case2 i p d ds hi ih => exact ih.trans (h ..)

lemma readoutShow_keeps (bcd1 : BitVec 32 → BitVec 32) (t : ReadoutTask) (v : ℚ) :
    f (readoutShow bcd1 t v p) = f p := by
  unfold readoutShow
  dsimp only
  rw [readoutPrint_keeps h, readoutChop_keeps h]
  split
  · exact h ..
  · rfl

end

section
variable (s : State) (b c : Blinker)

lemma blinkerVisit_frame : (blinkerVisit s b).flags = s.flags ∧
    (blinkerVisit s b).displayParams = s.displayParams ∧ (blinkerVisit s b).sdata = s.sdata ∧
    (blinkerVisit s b).panel = s.panel := by
  unfold blinkerVisit
  split <;> exact ⟨rfl, rfl, rfl, rfl⟩

lemma done_advance (d : BlinkerData) : d.advance.done = d.done := by
  unfold BlinkerData.advance
  dsimp only
  split_ifs <;> rfl

lemma done_blinkerVisit : ((blinkerVisit s b).bdata c).done = (s.bdata c).done := by
  unfold blinkerVisit
  split
  · by_cases hc : c = b
    · subst hc
      simp [done_advance]
    · simp [hc]
  · rfl

@[simp] lemma flags_blinkerUpdate : (blinkerUpdate s).flags = s.flags :=
  foldl_keeps (f := State.flags) (fun s b => (blinkerVisit_frame s b).1) s s.sdata

@[simp] lemma displayParams_blinkerUpdate : (blinkerUpdate s).displayParams = s.displayParams :=
  foldl_keeps (f := State.displayParams) (fun s b => (blinkerVisit_frame s b).2.1) s s.sdata

@[simp] lemma panel_blinkerUpdate : (blinkerUpdate s).panel = s.panel :=
  foldl_keeps (f := State.panel) (fun s b => (blinkerVisit_frame s b).2.2.2) s s.sdata

/-- `blinker_update` advances blinkers; it stops none. -/
@[simp] lemma done_blinkerUpdate : ((blinkerUpdate s).bdata c).done = (s.bdata c).done :=
  foldl_keeps (f := fun s : State => (s.bdata c).done) (fun s b => done_blinkerVisit s b c) s s.sdata

lemma sdata_foldl_blinkerVisit : (s.sdata.foldl blinkerVisit s).sdata = s.sdata :=
  foldl_keeps (f := State.sdata) (fun s b => (blinkerVisit_frame s b).2.2.1) s s.sdata

lemma mem_blinkerUpdate : c ∈ (blinkerUpdate s).sdata ↔ c ∈ s.sdata ∧ (s.bdata c).done = 0 := by
  have hd := done_blinkerUpdate s c
  unfold blinkerUpdate slinkCompact at hd ⊢
  rw [List.mem_filter, sdata_foldl_blinkerVisit, decide_eq_true_eq, hd]

@[simp] lemma flags_daylightUpdate (d : Bool) : (daylightUpdate d s).flags = s.flags := by
  unfold daylightUpdate
  split <;> rfl

@[simp] lemma displayParams_daylightUpdate (d : Bool) :
    (daylightUpdate d s).displayParams = s.displayParams := by
  unfold daylightUpdate
  split <;> rfl

lemma slinkAdd_frame : (slinkAdd b s).flags = s.flags ∧
    (slinkAdd b s).displayParams = s.displayParams := by
  unfold slinkAdd
  split <;> exact ⟨rfl, rfl⟩

lemma warningSwitch_frame : (warningSwitch s).flags = s.flags ∧
    (warningSwitch s).displayParams = s.displayParams := by
  unfold warningSwitch
  split
  · exact slinkAdd_frame _ _
  · split <;> exact ⟨rfl, rfl⟩

lemma warningShine_frame : (warningShine s).flags = s.flags ∧
    (warningShine s).displayParams = s.displayParams := by
  unfold warningShine
  split <;> exact ⟨rfl, rfl⟩

@[simp] lemma flags_warningUpdate : (warningUpdate s).flags = s.flags :=
  (warningShine_frame _).1.trans (warningSwitch_frame s).1

@[simp] lemma displayParams_warningUpdate : (warningUpdate s).displayParams = s.displayParams :=
  (warningShine_frame _).2.trans (warningSwitch_frame s).2

@[simp] lemma displayParams_readoutUpdate (bcd1 : BitVec 32 → BitVec 32) (t : ReadoutTask) :
    (readoutUpdate bcd1 t s).displayParams = s.displayParams := rfl

@[simp] lemma flags_afrUpdate : (afrUpdate s).flags = s.flags := by
  simp only [afrUpdate]

end

end Blastit.Fw.Display
