import Blastit.Fw.AfrBar
import Blastit.Fw.BcdHandshake
import Blastit.Fw.BoostBar
import Blastit.Fw.Modulation
import Blastit.Fw.Readout

/-!
What the panel shows after any number of frames.

The readouts and the bars are written anew in every frame, so that of all readings only those
of the last one are left to see; what stays of the others are the latched flags, and all they
do is to put the bars out. The digits are followed from the readings through the converter, the
commands of the frames and the registers of the array to the lines that drive them.
-/

namespace Blastit.Fw.PanelFace

open Blastit.Lib.Clocked Blastit.Lib.Decimal Blastit.Lib.Stores
open Blastit.Rtl Blastit.Rtl.SsegArray
open Blastit.Fw.Panel Blastit.Fw.Display Blastit.Fw.Digits Blastit.Fw.Readout
open Blastit.Fw.Leds hiding storeWord command

inductive Row
  | afr | oil | coolant | intake
  deriving DecidableEq, Repr

def Row.task : Row → ReadoutTask
  | .afr => afrReadoutTask
  | .oil => oilReadoutTask
  | .coolant => coolantReadoutTask
  | .intake => intakeReadoutTask

def rows : List Row := [.afr, .oil, .coolant, .intake]

/-! ### The converter -/

/-- A call of `bcd_convert` for `bin`, with whatever timing, on a converter in use returns
`out`. -/
def Converted (bin : BitVec 32) (out : List (BitVec 8)) : Prop :=
  ∃ T fuel b b', BcdConvert.InUse b ∧ BcdConvert.bcdConvert T bin fuel b = some (b', out)

/-- The converter keeps thirteen bits. -/
lemma Converted.digits {x : ℕ} {out : List (BitVec 8)} (h : Converted (BitVec.ofNat 32 x) out)
    (hx : x < 8192) : out = BcdConvert.digits x := by
  obtain ⟨T, fuel, b, b', hb, hc⟩ := h
  exact ((BcdConvert.returns_pos_iff hb.quiet (by omega)).mpr hx T).2 fuel b' out hc

/-! ### What the panel is to show -/

def codeDigit (t : ReadoutTask) : Digit := ⟨true, false, true, t.code.setWidth 4⟩

/-- The lights of the AFR bar that are on. -/
def InBar (p : DisplayParams) (a : ℕ) : Prop :=
  (afrEnds p.afr p.load).1 ≤ (a : ℤ) ∧ (a : ℤ) ≤ (afrEnds p.afr p.load).2

/-- A bar shines while `on` holds, and is dark otherwise. -/
structure Shines (brightness : BitVec 8) (on : Prop) : Prop where
  full : on → brightness = ledsBrightnessMax
  dark : ¬ on → brightness = 0

/-- The row spells its reading, after its code, and what is driven of it shows that. The
commands are all that have been written since power-up, to an array that held anything before
and took its time with them. -/
structure ShowsRow (p : DisplayParams) (cmds : List (BitVec 32)) (r : Row) : Prop where
  code : ∀ (hold gap : ℕ → ℕ) (m : Shown),
    (wave hold gap cmds).foldl storeWord m (position r.task 0) = some (codeDigit r.task)
  value : ∀ (hold gap : ℕ → ℕ) (m : Shown), ∀ k ∈ places,
    (wave hold gap cmds).foldl storeWord m (position r.task k) =
      some (rowDigit (r.task.value p) k)
  driven : ∀ A hold gap brightness ledPeriod n i, (wave hold gap cmds).length ≤ n → ∀ k ∈ places,
    (oe (hear A hold gap cmds brightness ledPeriod n) i).getLsbD (position r.task k) = true →
      oSseg (hear A hold gap cmds brightness ledPeriod n) i = sseg (rowDigit (r.task.value p) k)

/-- Every light of the boost bar is on, and of the AFR bar those up to the reading. -/
structure ShowsBars (p : DisplayParams) (cmds : List (LedArray × BitVec 32)) : Prop where
  boost : ∀ (beyond : Beyond) (hold : ℕ → ℕ) (b : Board), ∀ a < ledsMax,
    (b.run hold (cmds.flatMap (send beyond))).bits .ledArray1 a = true
  afr : ∀ (beyond : Beyond) (hold : ℕ → ℕ) (b : Board), ∀ a < ledsMax,
    (b.run hold (cmds.flatMap (send beyond))).bits .ledArray2 a = true ↔ InBar p a

/-- The panel shows the readings of the frame `f`; `latched` are the flags set by then. -/
structure Shows (f : Frame) (latched : WarningFlag → Prop) (p : Panel) : Prop where
  rows : ∀ r, ShowsRow f.displayParams p.ssegWrVal r
  bars : ShowsBars f.displayParams p.ledsWrVal
  boostShines : Shines (p.ledsBrightness .ledArray1) (f.daylight = true ∧ ¬ latched .boostWarn)
  afrShines : Shines (p.ledsBrightness .ledArray2)
    (f.daylight = true ∧ ¬ (latched .afrWarn ∧ afrMinLoad ≤ f.displayParams.load))

/-! ### The commands of a row -/

/-- What the digits hold after the commands. -/
def heard (m : Shown) (cmds : List (BitVec 32)) : Shown :=
  cmds.foldl (fun m c => storeWord m (c.setWidth 13)) m

section
variable {m : Shown} {t : ReadoutTask} {r q : Row} {k : ℕ}

lemma heard_append (m : Shown) (as bs : List (BitVec 32)) :
    heard m (as ++ bs) = heard (heard m as) bs := List.foldl_append

end

/-! ### The commands of a frame -/

section
variable {bcd1 : BitVec 32 → BitVec 32} {s : Display.State} {f : Frame} {v : ℚ}

lemma Shines.congr {b : BitVec 8} {on on' : Prop} (h : Shines b on) (hon : on ↔ on') :
    Shines b on' := ⟨fun h' => h.full (hon.mpr h'), fun h' => h.dark fun ho => h' (hon.mp ho)⟩

end

/-! ### The lights -/

section
variable (beyond : Beyond) (hold : ℕ → ℕ) (b : Board) (on : ℕ → Bool) {arr : LedArray}

lemma wrVal_send (w : BitVec 32) : ((b.run hold (send beyond (arr, w))).ports arr).wrVal = 0 := by
  rw [run_send, Board.ports_write]
  simp [Board.store]

end

/-! ### The codes -/

section
variable {bcd1 : BitVec 32 → BitVec 32} (daylight : Bool) (panel : Panel) (inp : ℕ → Frame)

lemma oSseg_of_driven {A : SsegArray.State main} {i : SsegArray.In main} {k : ℕ} {d : Digit}
    (h : (oe A i).getLsbD k = true) (hd : A.ssegArrReg k = sseg d) : oSseg A i = sseg d := by
  obtain ⟨hpass, -, -, hidx⟩ := (oe_iff A i k).mp h
  rw [oSseg_eq hpass, curSseg, ← hidx, hd]

end

end Blastit.Fw.PanelFace
