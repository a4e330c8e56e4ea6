import Blastit.Fw.PanelFace
import Blastit.Fw.StatusLeds

/-!
`test` of `test.c`, as `TEST_DISPLAY` builds it: the lamp test that the firmware runs in place
of the event loop.

Passes alternate between two patterns. Every lamp that can be switched is written anew in every
pass, so that the last pass alone decides what is to be seen, and passes in a row take each of
them through both of its states.
-/

namespace Blastit.Fw.TestPanel

open Blastit.Lib.Clocked Blastit.Lib.Stores
open Blastit.Rtl Blastit.Rtl.SsegArray
open Blastit.Fw.Panel Blastit.Fw.Digits Blastit.Fw.Readout Blastit.Fw.PanelFace
open Blastit.Fw.StatusLeds
open Blastit.Fw.Leds hiding storeWord command

structure State where
  i : BitVec 32
  panel : Panel
  status : StatusLeds.State

def ledsLoop (en : ℕ → Bool) (p : Panel) : Panel :=
  (List.range ledsMax).foldl
    (fun p j =>
      (p.ledsEnableLed .ledArray1 (BitVec.ofNat 32 j) (en j)).ledsEnableLed .ledArray2
        (BitVec.ofNat 32 j) (en j)) p

def ssegLoop (flags val : ℕ → BitVec 32) (p : Panel) : Panel :=
  (List.range ssegMax).foldl
    (fun p j => p.ssegSetBcd (BitVec.ofNat 32 j) (flags j) (val j)) p

/-- `test`, before its loop. -/
def setup (s : State) : State where
  i := 0
  panel :=
    let p := (s.panel.warnSetBrightness (BitVec.ofNat 8 (warnBrightnessMax >>> 4))).warnSetEn true
    let p := p.ledsSetBrightness .ledArray1 ledsBrightnessMax
    let p := p.ledsSetBrightness .ledArray2 ledsBrightnessMax
    let p := ledsLoop (fun _ => true) p
    let p := p.ssegSetBrightness ssegBrightnessMax
    ssegLoop (fun _ => ssegValEn ||| ssegDp) (fun i => BitVec.ofNat 32 i) p
  status :=
    statusLedOn (StatusLed.ign.mask ||| StatusLed.err.mask ||| StatusLed.urx.mask |||
      StatusLed.utx.mask) s.status

/-- A pass of the loop, up to its wait. -/
def pass (s : State) : State :=
  let i := s.i + 1
  if s.i % 2 = 0 then
    { i
      status :=
        statusLedOff (StatusLed.err.mask ||| StatusLed.utx.mask)
          (statusLedOn (StatusLed.ign.mask ||| StatusLed.urx.mask) s.status)
      panel :=
        ssegLoop (fun _ => ssegValEn ||| ssegDp) (fun _ => i)
          (ledsLoop (fun j => decide (j % 2 = 0)) s.panel) }
  else
    { i
      status :=
        statusLedOff (StatusLed.ign.mask ||| StatusLed.urx.mask)
          (statusLedOn (StatusLed.err.mask ||| StatusLed.utx.mask) s.status)
      panel :=
        ssegLoop (fun j => if j % 2 = 0 then ssegValEn ||| ssegSign else 0) (fun _ => 0)
          (ledsLoop (fun j => decide (j % 2 ≠ 0)) s.panel) }

/-- `test` begins with the lights enabled and the lamp off. -/
def start (panel : Panel) : State := ⟨0, panel.warnInit, statusLedEnable true StatusLeds.initial⟩

abbrev after (panel : Panel) (n : ℕ) : State :=
  exec (fun s (_ : Unit) => pass s) (setup (start panel)) (fun _ => ()) n

/-! ### The patterns -/

inductive Lamp
  | segment (k : Fin ssegMax) (j : Fin 8)
  | light (arr : LedArray) (a : Fin ledsMax)
  | status (l : StatusLed)

def digit (n k : ℕ) : Digit :=
  if n % 2 = 0 then ⟨true, false, true, BitVec.ofNat 4 (n + 1)⟩
  else ⟨decide (k % 2 = 0), decide (k % 2 = 0), false, 0⟩

/-- What a lamp is told in pass `n`. -/
def pattern (n : ℕ) : Lamp → Bool
  | .segment k j => (sseg (digit n k)).getLsbD j
  | .light _ a => decide (a.val % 2 = n % 2)
  | .status l => decide (l.idx % 2 = n % 2)

/-- The lamp is on, or off, once all commands have been heard: whatever the register files held
before, whatever time the commands took. A segment is seen while its digit is driven. -/
def Stands (s : State) : Lamp → Bool → Prop
  | .segment k j, v => ∀ A hold gap brightness ledPeriod t i,
      (wave hold gap s.panel.ssegWrVal).length ≤ t →
        ((hear A hold gap s.panel.ssegWrVal brightness ledPeriod t).ssegArrReg k).getLsbD j = v ∧
          ((oe (hear A hold gap s.panel.ssegWrVal brightness ledPeriod t) i).getLsbD k = true →
            (oSseg (hear A hold gap s.panel.ssegWrVal brightness ledPeriod t) i).getLsbD j = v)
  | .light arr a, v => ∀ (beyond : Beyond) (hold : ℕ → ℕ) (b : Board),
      (b.run hold (s.panel.ledsWrVal.flatMap (send beyond))).bits arr a = v
  | .status l, v => lit l s.status = v

/-- The registers that no pass writes. -/
structure Bright (p : Panel) : Prop where
  warnEn : p.WarnEn
  warn : p.warnPwmBrightness = 0x0F
  sseg : p.ssegBrightness = ssegBrightnessMax
  leds : ∀ arr, p.ledsBrightness arr = ledsBrightnessMax

/-! ### The digits -/

def tell (k : ℕ) (d : Digit) : BitVec 32 :=
  command (BitVec.ofNat 32 k) (digitFlags d) (d.val.setWidth 32)

lemma storeWord_tell (m : Shown) {k : ℕ} (hk : k < ssegMax) (d : Digit) :
    storeWord m ((tell k d).setWidth 13) = Function.update m k (some d) := by
  have hlt : k < 20 := hk
  obtain ⟨hwr, hsel, hdigit⟩ := port_command (BitVec.ofNat 32 k) (d.val.setWidth 32) d 0 0
  rw [BitVec.toNat_ofNat, Nat.mod_eq_of_lt (by omega), Nat.mod_eq_of_lt (by omega)] at hsel
  rw [storeWord, store, tell, if_pos hwr, hsel, hdigit,
    BitVec.setWidth_setWidth_of_le _ (by decide), BitVec.setWidth_eq]

lemma ssegWrVal_ssegLoop (flags val : ℕ → BitVec 32) (p : Panel) :
    (ssegLoop flags val p).ssegWrVal = p.ssegWrVal ++
      (List.range ssegMax).map fun k => command (BitVec.ofNat 32 k) (flags k) (val k) := by
  rw [List.map_eq_flatMap]
  refine foldl_appends (I := fun _ => True) (f := Panel.ssegWrVal) ?_ ?_ trivial _
  · exact fun _ _ _ => trivial
  · exact fun _ _ _ => rfl

lemma heard_tell (d : ℕ → Digit) (m : Shown) {k : ℕ} (hk : k < ssegMax) :
    heard m ((List.range ssegMax).map fun j => tell j (d j)) k = some (d k) := by
  have hstores : ∀ (l : List ℕ), (∀ j ∈ l, j < ssegMax) → ∀ m : Shown,
      heard m (l.map fun j => tell j (d j)) = stores m (l.map fun j => (j, some (d j))) := by
    intro l hl
    induction l with
    | nil => exact fun _ => rfl
    | cons j l ih =>
      intro m
      rw [List.map_cons, List.map_cons, stores_cons, ← storeWord_tell m (hl j List.mem_cons_self)]
      exact ih (fun i hi => hl i (List.mem_cons_of_mem j hi)) _
  rw [hstores _ (fun j hj => List.mem_range.mp hj)]
  exact @stores_map _ _ _ m _ id (fun j => some (d j)) _ k (List.mem_range.mpr hk) fun _ _ h => h

/-! ### The lights -/

/-- A command for a light. -/
abbrev Cell : Type := LedArray × ℕ × Bool

def Cell.command (c : Cell) : LedArray × BitVec 32 :=
  (c.1, Leds.command (BitVec.ofNat 32 c.2.1) c.2.2)

/-- **Commands to both bars, in any order**: a light shows what all commands for it agree on, and
the register of its bar is left with a zero. -/
lemma bits_cells (beyond : Beyond) (hold : ℕ → ℕ) (b : Board) {cells : List Cell} {arr : LedArray}
    {a : ℕ} {v : Bool} (hlt : ∀ c ∈ cells, c.2.1 < ledsMax)
    (hmem : ∃ c ∈ cells, c.1 = arr ∧ c.2.1 = a)
    (hv : ∀ c ∈ cells, c.1 = arr → c.2.1 = a → c.2.2 = v) :
    (b.run hold ((cells.map Cell.command).flatMap (send beyond))).bits arr a = v ∧
      ((b.run hold ((cells.map Cell.command).flatMap (send beyond))).ports arr).wrVal = 0 := by
  -- from the end, where the last command for the light counts
  induction cells using List.reverseRecOn with
  | nil =>
    obtain ⟨c, hc, -⟩ := hmem
    exact absurd hc List.not_mem_nil
  | append_singleton cells c ih =>
    obtain ⟨arr', a', v'⟩ := c
    have hlast : (arr', a', v') ∈ cells ++ [(arr', a', v')] := by simp
    have hbefore : ∀ c ∈ cells, c ∈ cells ++ [(arr', a', v')] := fun c hc => by simp [hc]
    have hprev : ¬ (arr' = arr ∧ a' = a) → _ := fun hne =>
      ih (fun c hc => hlt c (hbefore c hc))
        (by
          obtain ⟨c, hc, harr, ha⟩ := hmem
          rcases List.mem_append.mp hc with hc | hc
          · exact ⟨c, hc, harr, ha⟩
          · obtain rfl := List.mem_singleton.mp hc
            exact absurd ⟨harr, ha⟩ hne)
        (fun c hc => hv c (hbefore c hc))
    have ha' : a' < 30 := hlt _ hlast
    have haddr : (BitVec.ofNat 32 a').toNat = a' := by
      rw [BitVec.toNat_ofNat, Nat.mod_eq_of_lt (by omega)]
    rw [List.map_append, List.flatMap_append, Board.run_append, List.map_singleton,
      List.flatMap_singleton, Cell.command]
    by_cases harr : arr' = arr
    · subst harr
      refine ⟨?_, wrVal_send beyond _ _ _⟩
      rw [bits_send, storeWord_command _ _ _ (by rw [haddr]; exact ha'), haddr]
      by_cases haa : a' = a
      · subst haa
        rw [Function.update_self]
        exact hv _ hlast rfl rfl
      · rw [Function.update_of_ne (Ne.symm haa)]
        exact (hprev fun h => haa h.2).1
    · obtain ⟨hbits, hzero⟩ := hprev fun h => harr h.1
      obtain ⟨hkeep, hport⟩ := bits_send_of_ne beyond _ _ (Ne.symm harr) hzero _
      exact ⟨(congrFun hkeep a).trans hbits, hport⟩

/-- The commands of a round over both bars. -/
def round (en : ℕ → Bool) : List Cell :=
  (List.range ledsMax).flatMap fun a => [(.ledArray1, a, en a), (.ledArray2, a, en a)]

lemma ledsWrVal_ledsLoop (en : ℕ → Bool) (p : Panel) :
    (ledsLoop en p).ledsWrVal = p.ledsWrVal ++ (round en).map Cell.command := by
  rw [round, List.map_flatMap]
  refine foldl_appends (I := fun _ => True) (f := Panel.ledsWrVal) ?_ ?_ trivial _
  · exact fun _ _ _ => trivial
  · exact fun p _ _ => List.append_assoc p.ledsWrVal [_] [_]

lemma bits_round (beyond : Beyond) (hold : ℕ → ℕ) (b : Board) (en : ℕ → Bool) (arr : LedArray)
    {a : ℕ} (ha : a < ledsMax) :
    (b.run hold (((round en).map Cell.command).flatMap (send beyond))).bits arr a = en a := by
  have hcell : ∀ c ∈ round en, c.2.1 < ledsMax ∧ c.2.2 = en c.2.1 := by
    intro c hc
    obtain ⟨j, hj, hc⟩ := List.mem_flatMap.mp hc
    have hlt := List.mem_range.mp hj
    rcases List.mem_pair.mp hc with rfl | rfl
    · exact ⟨hlt, rfl⟩
    · exact ⟨hlt, rfl⟩
  have hmem : ∃ c ∈ round en, c.1 = arr ∧ c.2.1 = a := by
    refine ⟨(arr, a, en a), List.mem_flatMap.mpr ⟨a, List.mem_range.mpr ha, ?_⟩, rfl, rfl⟩
    cases arr <;> simp
  refine (bits_cells beyond hold b (fun c hc => (hcell c hc).1) hmem fun c hc _ hca => ?_).1
  rw [(hcell c hc).2, hca]

/-! ### One pass -/

/-- What pass `n` leaves behind, apart from the counter. -/
structure Left (n : ℕ) (s s' : State) : Prop where
  digits : s'.panel.ssegWrVal =
    s.panel.ssegWrVal ++ (List.range ssegMax).map fun k => tell k (digit n k)
  lights : s'.panel.ledsWrVal =
    s.panel.ledsWrVal ++ (round fun a => decide (a % 2 = n % 2)).map Cell.command
  status : ∀ l, lit l s'.status = decide (l.idx % 2 = n % 2)

/-- What holds before and after every pass. -/
structure Ready (n : ℕ) (s : State) : Prop where
  i : s.i = BitVec.ofNat 32 n
  bright : Bright s.panel
  enabled : s.status.statusLedEn = true
  shows : StatusLeds.Shows s.status

section
variable {n : ℕ} {s : State}

/-- The registers beside the commands. -/
def knobs (p : Panel) : BitVec 32 × BitVec 8 × BitVec 8 × (LedArray → BitVec 8) :=
  (p.warnPwmControl, p.warnPwmBrightness, p.ssegBrightness, p.ledsBrightness)

lemma Bright.of_knobs {p q : Panel} (h : Bright p) (hpq : knobs q = knobs p) : Bright q := by
  simp only [knobs, Prod.mk.injEq] at hpq
  obtain ⟨hcontrol, hwarn, hsseg, hleds⟩ := hpq
  refine ⟨?_, hwarn.trans h.warn, hsseg.trans h.sseg, fun arr => ?_⟩
  · rw [Panel.WarnEn, hcontrol]
    exact h.warnEn
  · rw [hleds]
    exact h.leds arr

lemma knobs_ledsLoop (en : ℕ → Bool) (p : Panel) : knobs (ledsLoop en p) = knobs p := by
  refine foldl_keeps (f := knobs) ?_ p _
  exact fun _ _ => rfl

lemma knobs_ssegLoop (flags val : ℕ → BitVec 32) (p : Panel) :
    knobs (ssegLoop flags val p) = knobs p := by
  refine foldl_keeps (f := knobs) ?_ p _
  exact fun _ _ => rfl

lemma ssegWrVal_ledsLoop (en : ℕ → Bool) (p : Panel) :
    (ledsLoop en p).ssegWrVal = p.ssegWrVal := by
  refine foldl_keeps (f := Panel.ssegWrVal) ?_ p _
  exact fun _ _ => rfl

lemma ledsWrVal_ssegLoop (flags val : ℕ → BitVec 32) (p : Panel) :
    (ssegLoop flags val p).ledsWrVal = p.ledsWrVal := by
  refine foldl_keeps (f := Panel.ledsWrVal) ?_ p _
  exact fun _ _ => rfl

lemma even_iff (n : ℕ) : BitVec.ofNat 32 n % 2 = 0 ↔ n % 2 = 0 := by
  rw [← BitVec.toNat_inj, BitVec.toNat_umod, BitVec.toNat_ofNat]
  show n % 2 ^ 32 % 2 = 0 ↔ _
  omega

lemma lit_pair {on off : BitVec 32} {st : StatusLeds.State} (hen : st.statusLedEn = true)
    (h : StatusLeds.Shows st) {l : StatusLed} {v : Bool}
    (hv : ((wanted l st || on.getLsbD l.idx) && !off.getLsbD l.idx) = v) :
    lit l (statusLedOff off (statusLedOn on st)) = v := by
  have hiff := ((h.on on).off off).lit l
  rw [wanted_off, wanted_on, hv, statusLedEn_off, statusLedEn_on] at hiff
  exact Bool.eq_iff_iff.mpr (hiff.trans (and_iff_right hen))

lemma ssegWrVal_loops (en : ℕ → Bool) {flags val : ℕ → BitVec 32} {d : ℕ → Digit} (p : Panel)
    (hflags : ∀ k, flags k = digitFlags (d k)) (hval : ∀ k, val k &&& 0xf = (d k).val.setWidth 32) :
    (ssegLoop flags val (ledsLoop en p)).ssegWrVal =
      p.ssegWrVal ++ (List.range ssegMax).map fun k => tell k (d k) := by
  rw [ssegWrVal_ssegLoop, ssegWrVal_ledsLoop]
  refine congrArg (_ ++ ·) (List.map_congr_left fun k _ => ?_)
  have hmask : (d k).val.setWidth 32 &&& 0xf = (d k).val.setWidth 32 := by
    rw [← hval, BitVec.and_assoc, BitVec.and_self]
  rw [tell, command, command, hflags, hval, hmask]

lemma ledsWrVal_loops (en : ℕ → Bool) (flags val : ℕ → BitVec 32) (p : Panel) :
    (ssegLoop flags val (ledsLoop en p)).ledsWrVal =
      p.ledsWrVal ++ (round en).map Cell.command := by
  rw [ledsWrVal_ssegLoop, ledsWrVal_ledsLoop]

lemma low_digit (n : ℕ) :
    BitVec.ofNat 32 n &&& 0xf = (BitVec.ofNat 4 n).setWidth 32 := by
  rw [← BitVec.toNat_inj, BitVec.toNat_and, BitVec.toNat_setWidth, BitVec.toNat_ofNat,
    BitVec.toNat_ofNat]
  show n % 2 ^ 32 &&& 2 ^ 4 - 1 = _
  rw [Nat.and_two_pow_sub_one_eq_mod]
  omega

/-- **One pass**: the pattern of its parity. -/
lemma Ready.pass (h : Ready n s) : Left n s (pass s) ∧ Ready (n + 1) (pass s) := by
  have hnext : s.i + 1 = BitVec.ofNat 32 (n + 1) := by
    rw [h.i, BitVec.ofNat_add]
    rfl
  have heven : s.i % 2 = 0 ↔ n % 2 = 0 := by rw [h.i, even_iff]
  unfold TestPanel.pass
  rcases Nat.mod_two_eq_zero_or_one n with hn | hn
  · rw [if_pos (heven.mpr hn), hnext]
    refine ⟨⟨?_, ?_, fun l => ?_⟩, ⟨rfl, ?_, ?_, (h.shows.on _).off _⟩⟩
    all_goals dsimp only
    · refine ssegWrVal_loops _ _ (fun k => ?_) fun k => ?_
      · simp [digit, hn, digitFlags]
      · rw [digit, if_pos hn]
        exact low_digit (n + 1)
    · rw [ledsWrVal_loops, hn]
    · refine lit_pair h.enabled h.shows ?_
      rw [hn]
      cases l <;> simp [StatusLed.idx, StatusLed.mask]
    · exact h.bright.of_knobs ((knobs_ssegLoop _ _ _).trans (knobs_ledsLoop _ _))
    · simp [h.enabled]
  · have hodd : ¬ n % 2 = 0 := by omega
    rw [if_neg (mt heven.mp hodd), hnext]
    refine ⟨⟨?_, ?_, fun l => ?_⟩, ⟨rfl, ?_, ?_, (h.shows.on _).off _⟩⟩
    all_goals dsimp only
    · refine ssegWrVal_loops _ _ (fun k => ?_) fun k => ?_
      · rw [digit, if_neg hodd]
        by_cases hk : k % 2 = 0 <;> simp [hk, digitFlags]
      · rw [digit, if_neg hodd]
        rfl
    · rw [ledsWrVal_loops, hn]
      refine congrArg (fun en => _ ++ (round en).map Cell.command) (funext fun j => ?_)
      exact decide_eq_decide.mpr Nat.mod_two_ne_zero
    · refine lit_pair h.enabled h.shows ?_
      rw [hn]
      cases l <;> simp [StatusLed.idx, StatusLed.mask]
    · exact h.bright.of_knobs ((knobs_ssegLoop _ _ _).trans (knobs_ledsLoop _ _))
    · simp [h.enabled]

end

/-! ### Runs -/

section
variable {n : ℕ} {s s' : State} (panel : Panel)

lemma knobs_ssegSetBrightness (brightness : BitVec 8) (p : Panel) :
    knobs (p.ssegSetBrightness brightness) =
      ((knobs p).1, (knobs p).2.1, brightness, (knobs p).2.2.2) := rfl

lemma bright_setup (s : State) : Bright (setup s).panel := by
  have hknobs : knobs (setup s).panel = ((s.panel.warnSetEn true).warnPwmControl, 0x0F,
      ssegBrightnessMax, fun _ => ledsBrightnessMax) := by
    unfold setup
    dsimp only
    rw [knobs_ssegLoop, knobs_ssegSetBrightness, knobs_ledsLoop]
    refine Prod.ext rfl (Prod.ext rfl (Prod.ext rfl (funext fun arr => ?_)))
    cases arr <;> rfl
  have hen : (s.panel.warnSetEn true).WarnEn := (warnEn_warnSetEn true _).mpr (Or.inl rfl)
  simp only [knobs, Prod.mk.injEq] at hknobs
  obtain ⟨hcontrol, hwarn, hsseg, hleds⟩ := hknobs
  refine ⟨?_, hwarn, hsseg, fun arr => congrFun hleds arr⟩
  rw [Panel.WarnEn, hcontrol]
  exact hen

lemma ready_setup : Ready 0 (setup (start panel)) where
  i := rfl
  bright := bright_setup _
  enabled := rfl
  shows := (shows_enable true _).on _

lemma ready_after (n : ℕ) : Ready n (after panel n) := by
  induction n with
  | zero => exact ready_setup panel
  | succ n ih => exact ih.pass.2

lemma Left.stands (h : Left n s s') (lamp : Lamp) : Stands s' lamp (pattern n lamp) := by
  cases lamp with
  | segment k j =>
    intro A hold gap brightness ledPeriod t i ht
    have hfile : (hear A hold gap s'.panel.ssegWrVal brightness ledPeriod t).ssegArrReg k =
        sseg (digit n k) := by
      refine ((encodes_none A).exec _ t) _ k.isLt _ ?_
      rw [exec_store, List.take_of_length_le ht, foldl_wave, ← heard, h.digits, heard_append]
      exact heard_tell (digit n) _ k.isLt
    refine ⟨congrArg (fun w => BitVec.getLsbD w j) hfile, fun hdriven => ?_⟩
    rw [oSseg_of_driven hdriven hfile]
    rfl
  | light arr a =>
    intro beyond hold b
    rw [h.lights, List.flatMap_append, Board.run_append, bits_round beyond _ _ _ _ a.isLt]
    rfl
  | status l => exact h.status l

/-- The patterns come again after sixteen passes. -/
lemma pattern_mod (n : ℕ) (lamp : Lamp) : pattern (n % 16) lamp = pattern n lamp := by
  have hlow : BitVec.ofNat 4 (n % 16 + 1) = BitVec.ofNat 4 (n + 1) := by
    rw [← BitVec.toNat_inj, BitVec.toNat_ofNat, BitVec.toNat_ofNat]
    omega
  have hmod : n % 16 % 2 = n % 2 := by omega
  cases lamp with
  | segment k j => simp only [pattern, digit, hmod, hlow]
  | light arr a => simp only [pattern, hmod]
  | status l => simp only [pattern, hmod]

lemma exists_pattern (lamp : Lamp) (v : Bool) : ∃ r < 16, pattern r lamp = v := by
  have hdigit : ∀ (b : Fin 2) (j : Fin 8) (v : Bool), ∃ r < 16,
      (sseg (digit r b)).getLsbD j = v := by decide +kernel
  cases lamp with
  | segment k j =>
    obtain ⟨r, hr, h⟩ := hdigit ⟨k % 2, Nat.mod_lt _ (by decide)⟩ j v
    refine ⟨r, hr, ?_⟩
    rw [← h]
    simp only [pattern, digit, Nat.mod_mod]
  | light arr a =>
    refine ⟨if v then a % 2 else (a + 1) % 2, by split <;> omega, ?_⟩
    cases v
    · simp only [pattern, Bool.false_eq_true, if_false, decide_eq_false_iff_not]
      omega
    · simp [pattern]
  | status l =>
    refine ⟨if v then l.idx % 2 else (l.idx + 1) % 2, by split <;> omega, ?_⟩
    cases v
    · simp only [pattern, Bool.false_eq_true, if_false, decide_eq_false_iff_not]
      omega
    · simp [pattern]

end

/-- **The lamp test**: after every pass each lamp of the digits, of both bars and of the status
lights is as the pattern of that pass has it, at full brightness and with the warning lamp on;
and among any sixteen passes in a row there is one that leaves it on and one that leaves it
off. -/
theorem tests_every_lamp (panel : Panel) (n : ℕ) :
    (∀ lamp, Stands (after panel (n + 1)) lamp (pattern n lamp)) ∧
      Bright (after panel (n + 1)).panel ∧
      ∀ lamp v, ∃ u, n ≤ u ∧ u < n + 16 ∧ Stands (after panel (u + 1)) lamp v := by
  refine ⟨(ready_after panel n).pass.1.stands, (ready_after panel (n + 1)).bright,
    fun lamp v => ?_⟩
  obtain ⟨r, hr, hpattern⟩ := exists_pattern lamp v
  refine ⟨n + (r + 16 - n % 16) % 16, by omega, by omega, ?_⟩
  have hmod : (n + (r + 16 - n % 16) % 16) % 16 = r := by omega
  have h := (ready_after panel (n + (r + 16 - n % 16) % 16)).pass.1.stands lamp
  rw [← pattern_mod, hmod, hpattern] at h
  exact h

end Blastit.Fw.TestPanel
