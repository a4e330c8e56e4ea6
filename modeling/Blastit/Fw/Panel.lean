import Blastit.Lib.Mask

/-!
`controller_system.c`: the panel's registers, as far as the display writes them.

The LED and digit ports take command words; the write of `0` that ends each command is not
a command and is left out of the lists.
-/

namespace Blastit.Fw

open Blastit.Lib

inductive LedArray
  | ledArray1 | ledArray2
  deriving DecidableEq, Repr

def LedArray.val : LedArray → BitVec 32
  | .ledArray1 => 0
  | .ledArray2 => 1

/-- The registers, and the command words written so far. -/
structure Panel where
  warnPwmControl : BitVec 32
  warnPwmBrightness : BitVec 8
  ssegBrightness : BitVec 8
  ledsBrightness : LedArray → BitVec 8
  ledsWrVal : List (LedArray × BitVec 32)
  ssegWrVal : List (BitVec 32)

namespace Panel

def ledsMax : ℕ := 30
def ledsBrightnessMax : BitVec 8 := 0xFF
def ssegBrightnessMax : BitVec 8 := 0xFF
def warnBrightnessMax : ℕ := 0xFF

def ssegWr : BitVec 32 := 1 <<< 12
def ssegValEn : BitVec 32 := 1 <<< 6
def ssegSign : BitVec 32 := 1 <<< 5
def ssegDp : BitVec 32 := 1 <<< 4

def ledsControlEn : BitVec 32 := 1 <<< 8
def ledsControlSel : BitVec 32 := 1 <<< 9
def ledsAddrMask : BitVec 32 := 0xFF

def warnPwmControlEn : BitVec 32 := BitVec.twoPow 32 0

/-- `bcd_convert`; `bcd1` is what the converter leaves in `BCD1_BCD_BASE`. -/
def bcdConvert (bcd1 : BitVec 32 → BitVec 32) (bin : BitVec 32) : List (BitVec 8) :=
  let t := bcd1 bin
  [((t &&& 0xf000) >>> 12).setWidth 8, ((t &&& 0xf00) >>> 8).setWidth 8,
    ((t &&& 0xf0) >>> 4).setWidth 8, (t &&& 0xf).setWidth 8]

def ledsSetBrightness (arr : LedArray) (brightness : BitVec 8) (p : Panel) : Panel :=
  { p with ledsBrightness := Function.update p.ledsBrightness arr brightness }

def ledsEnableLed (arr : LedArray) (addr : BitVec 32) (en : Bool) (p : Panel) : Panel :=
  { p with
    ledsWrVal := p.ledsWrVal ++
      [(arr, ledsControlSel ||| (if en then ledsControlEn else 0) ||| (addr &&& ledsAddrMask))] }

def ssegSetBrightness (brightness : BitVec 8) (p : Panel) : Panel :=
  { p with ssegBrightness := brightness }

def ssegSetBcd (addr flags val : BitVec 32) (p : Panel) : Panel :=
  { p with
    ssegWrVal := p.ssegWrVal ++ [ssegWr ||| ((addr &&& 0x1f) <<< 7) ||| flags ||| (val &&& 0xf)] }

def warnSetBrightness (brightness : BitVec 8) (p : Panel) : Panel :=
  { p with warnPwmBrightness := brightness }

/-- `warn_set_en` only ever adds the bit. -/
def warnSetEn (en : Bool) (p : Panel) : Panel :=
  { p with warnPwmControl := p.warnPwmControl ||| (if en then warnPwmControlEn else 0) }

/-- `warn_init`, after its last write. -/
def warnInit (p : Panel) : Panel := { p with warnPwmControl := 0 }

/-- `WARN_PWM_CONTROL_EN` is set. -/
def WarnEn (p : Panel) : Prop := Mask.Has p.warnPwmControl 0

instance (p : Panel) : Decidable p.WarnEn := inferInstanceAs (Decidable (Mask.Has _ _))

@[simp] lemma not_warnEn_warnInit (p : Panel) : ¬ p.warnInit.WarnEn := Mask.not_has_zero

/-- A set bit stays set, whatever `warn_set_en` is asked for. -/
@[simp] lemma warnEn_warnSetEn (en : Bool) (p : Panel) :
    (p.warnSetEn en).WarnEn ↔ en = true ∨ p.WarnEn := by
  unfold WarnEn warnSetEn warnPwmControlEn
  cases en with
  | false => simp
  | true =>
    simp only [if_true, true_or, iff_true]
    exact (Mask.has_or _ (by decide) (by decide)).mpr (Or.inl rfl)

end Panel

end Blastit.Fw
