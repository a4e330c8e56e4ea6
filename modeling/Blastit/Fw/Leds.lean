import Blastit.Fw.Panel
import Blastit.Lib.Stores
import Blastit.Rtl.LedBars
import Mathlib.Tactic.IntervalCases

/-!
`leds_enable_led` and `leds_init`, over the bus.

The routines look the addresses of their registers up in tables of two entries. An index that
lies outside reads whatever memory holds there, and the write that follows goes wherever that
says.
-/

namespace Blastit.Fw.Leds

open Blastit.Lib.Stores Blastit.Rtl Blastit.Fw.Panel

/-! ### The firmware -/

def leds1WrValBase : BitVec 32 := 0x110e0
def leds2WrValBase : BitVec 32 := 0x11060
def leds1ResetControlBase : BitVec 32 := 0x110f0
def leds2ResetControlBase : BitVec 32 := 0x11070

def ledsCounterReset : BitVec 32 := 1 <<< 0
def ledsReset : BitVec 32 := 1 <<< 1

/-- The tables of addresses. -/
inductive Table
  | ledsWrMap | ledsResetMap
  deriving DecidableEq, Repr

def Table.entries : Table → List (BitVec 32)
  | .ledsWrMap => [leds1WrValBase, leds2WrValBase]
  | .ledsResetMap => [leds1ResetControlBase, leds2ResetControlBase]

inductive Access
  | index (table : Table) (i : BitVec 32)
  | write (addr val : BitVec 32)
  deriving DecidableEq, Repr

/-- What memory holds where a table is indexed beyond its end. -/
abbrev Beyond : Type := Table → BitVec 32 → BitVec 32

section
variable (beyond : Beyond)

def lookup (table : Table) (i : BitVec 32) : BitVec 32 :=
  table.entries.getD i.toNat (beyond table i)

/-- `REGW(table[i], val)`. -/
def regw (table : Table) (i val : BitVec 32) : List Access :=
  [.index table i, .write (lookup beyond table i) val]

def ledsEnableLed (arr addr : BitVec 32) (en : Bool) : List Access :=
  let wrVal := ledsControlSel ||| (if en then ledsControlEn else 0) ||| (addr &&& ledsAddrMask)
  regw beyond .ledsWrMap arr wrVal ++ regw beyond .ledsWrMap arr 0

/-- The loop of `leds_init`; it passes an address on as the array. -/
def ledsInitLoop (arr : LedArray) : List Access :=
  (List.range ledsMax).flatMap fun i =>
    .index .ledsResetMap arr.val ::
      ledsEnableLed beyond (lookup beyond .ledsResetMap arr.val) (BitVec.ofNat 32 i) false

def ledsInit (arr : LedArray) : List Access :=
  regw beyond .ledsResetMap arr.val (ledsCounterReset ||| ledsReset) ++
    regw beyond .ledsResetMap arr.val 0 ++ ledsInitLoop beyond arr

end

/-! ### The board -/

structure Board where
  bars : LedBars.State
  ports : LedArray → LedBars.Ports
  ledPeriod : BitVec 24

/-- The register that takes the commands of an array. -/
def wrValBase : LedArray → BitVec 32
  | .ledArray1 => leds1WrValBase
  | .ledArray2 => leds2WrValBase

def resetControlBase : LedArray → BitVec 32
  | .ledArray1 => leds1ResetControlBase
  | .ledArray2 => leds2ResetControlBase

namespace Board

/-- A write, as the bus decodes it. -/
def store (b : Board) (addr val : BitVec 32) : Board :=
  { b with
    ports := fun arr =>
      { b.ports arr with
        wrVal := if addr = wrValBase arr then val.setWidth 10 else (b.ports arr).wrVal
        resetControl :=
          if addr = resetControlBase arr then val.setWidth 2 else (b.ports arr).resetControl } }

def clock (b : Board) : Board :=
  { b with bars := LedBars.next b.bars ⟨b.ledPeriod, b.ports .ledArray1, b.ports .ledArray2⟩ }

/-- An access, and the clocks until the next one. -/
def access (b : Board) (hold : ℕ) : Access → Board
  | .index _ _ => b
  | .write addr val => clock^[hold + 1] (b.store addr val)

def run (b : Board) (hold : ℕ → ℕ) : List Access → Board
  | [] => b
  | a :: as => (b.access (hold 0) a).run (fun k => hold (k + 1)) as

def bits (b : Board) : LedArray → ℕ → Bool
  | .ledArray1 => b.bars.leds1.enReg
  | .ledArray2 => b.bars.leds2.enReg

end Board

/-! ### Commands -/

def command (addr : BitVec 32) (en : Bool) : BitVec 32 :=
  ledsControlSel ||| (if en then ledsControlEn else 0) ||| (addr &&& ledsAddrMask)

/-- The light a word in the register addresses. -/
def selAddr (w : BitVec 10) : ℕ := (w.setWidth 8).toNat

/-- What a word in the register does to the enable bits. -/
def storeWord (m : ℕ → Bool) (w : BitVec 10) : ℕ → Bool :=
  if w.getLsbD 9 && decide (selAddr w < ledsMax) then Function.update m (selAddr w) (w.getLsbD 8)
  else m

lemma storeWord_zero (m : ℕ → Bool) : storeWord m 0 = m := rfl

lemma storeWord_again (m : ℕ → Bool) (w : BitVec 10) :
    storeWord (storeWord m w) w = storeWord m w := by
  unfold storeWord
  split <;> simp

lemma command_getLsbD (addr : BitVec 32) (en : Bool) {i : ℕ} (hi : i < 10) :
    ((command addr en).setWidth 10).getLsbD i =
      if i < 8 then addr.getLsbD i else if i = 8 then en else true := by
  rw [command, show ledsControlSel = BitVec.twoPow 32 9 from rfl,
    show ledsControlEn = BitVec.twoPow 32 8 from rfl,
    show ledsAddrMask = BitVec.ofNat 32 0xff from rfl]
  cases en <;>
    simp only [BitVec.getLsbD_setWidth, BitVec.getLsbD_or, BitVec.getLsbD_and,
      BitVec.getLsbD_twoPow, if_true, Bool.false_eq_true, if_false] <;>
    interval_cases i <;> simp

lemma selAddr_command (addr : BitVec 32) (en : Bool) :
    selAddr ((command addr en).setWidth 10) = addr.toNat % 256 := by
  have he : ((command addr en).setWidth 10).setWidth 8 = addr.setWidth 8 := by
    apply BitVec.eq_of_getLsbD_eq
    intro i hi
    rw [BitVec.getLsbD_setWidth, command_getLsbD addr en (by omega), if_pos hi,
      BitVec.getLsbD_setWidth]
  rw [selAddr, he, BitVec.toNat_setWidth]

lemma storeWord_command (m : ℕ → Bool) (addr : BitVec 32) (en : Bool)
    (h : addr.toNat < ledsMax) :
    storeWord m ((command addr en).setWidth 10) = Function.update m addr.toNat en := by
  have haddr : selAddr ((command addr en).setWidth 10) = addr.toNat := by
    have hmax : addr.toNat < 30 := h
    rw [selAddr_command, Nat.mod_eq_of_lt (by omega)]
  have hsel : ((command addr en).setWidth 10).getLsbD 9 = true := command_getLsbD addr en (by decide)
  have hen : ((command addr en).setWidth 10).getLsbD 8 = en := command_getLsbD addr en (by decide)
  rw [storeWord, haddr, hsel, hen, if_pos (by simpa using h)]

lemma ledsWrVal_foldl {α : Type*} (arr : LedArray) (addr : α → BitVec 32) (en : α → Bool)
    (as : List α) (p : Panel) :
    (as.foldl (fun p a => p.ledsEnableLed arr (addr a) (en a)) p).ledsWrVal =
      p.ledsWrVal ++ as.map fun a => (arr, command (addr a) (en a)) := by
  induction as generalizing p with
  | nil => simp
  | cons a as ih =>
    rw [List.foldl_cons, ih, List.map_cons]
    exact List.append_assoc p.ledsWrVal [_] _

lemma ledsWrVal_ledsSetBrightness (arr : LedArray) (brightness : BitVec 8) (p : Panel) :
    (p.ledsSetBrightness arr brightness).ledsWrVal = p.ledsWrVal := rfl

/-! ### Runs -/

section
variable {beyond : Beyond} {arr arr' : LedArray}

lemma lookup_ledsWrMap : lookup beyond .ledsWrMap arr.val = wrValBase arr := by cases arr <;> rfl

lemma lookup_ledsResetMap : lookup beyond .ledsResetMap arr.val = resetControlBase arr := by
  cases arr <;> rfl

lemma wrValBase_inj : wrValBase arr = wrValBase arr' ↔ arr = arr' := by
  cases arr <;> cases arr' <;> decide

lemma wrValBase_ne_resetControlBase : wrValBase arr ≠ resetControlBase arr' := by
  cases arr <;> cases arr' <;> decide

end

namespace Board

section
variable (b : Board) (arr : LedArray)

@[simp] lemma ports_wait (n : ℕ) : (clock^[n] b).ports = b.ports := by
  induction n generalizing b with
  | zero => rfl
  | succ n ih => exact ih b.clock

/-- **One clock**: both matrices read the words before them. -/
lemma bits_clock : b.clock.bits arr = storeWord (b.bits arr) (b.ports arr).wrVal := by
  cases arr with
  | ledArray1 => exact LedMatrix.next_enReg _ _
  | ledArray2 => exact LedMatrix.next_enReg _ _

lemma bits_wait (n : ℕ) :
    (clock^[n + 1] b).bits arr = storeWord (b.bits arr) (b.ports arr).wrVal := by
  induction n generalizing b with
  | zero => exact bits_clock b arr
  | succ n ih =>
    rw [Function.iterate_succ_apply, ih, bits_clock]
    exact storeWord_again _ _

lemma bits_write (hold : ℕ) (addr val : BitVec 32) :
    (b.access hold (.write addr val)).bits arr =
      storeWord (b.bits arr) ((b.store addr val).ports arr).wrVal :=
  bits_wait (b.store addr val) arr hold

lemma ports_write (hold : ℕ) (addr val : BitVec 32) :
    (b.access hold (.write addr val)).ports = (b.store addr val).ports :=
  ports_wait _ _

lemma run_append (as as' : List Access) (hold : ℕ → ℕ) :
    b.run hold (as ++ as') = (b.run hold as).run (fun k => hold (k + as.length)) as' := by
  induction as generalizing b hold with
  | nil => rfl
  | cons a as ih =>
    rw [List.cons_append, run, ih, run, List.length_cons]
    exact congrArg (fun f => run _ f as') (funext fun k => congrArg hold (by omega))

end

lemma run_inv {I : Board → Prop} {as : List Access}
    (hstep : ∀ b hold, ∀ a ∈ as, I b → I (b.access hold a)) {b : Board} (h : I b) (hold : ℕ → ℕ) :
    I (b.run hold as) := by
  induction as generalizing b hold with
  | nil => exact h
  | cons a as ih =>
    refine ih (fun b hold a' ha' => hstep b hold a' (List.mem_cons_of_mem a ha')) ?_ _
    exact hstep b (hold 0) a List.mem_cons_self h

end Board

/-! ### Lights one after the other -/

/-- A command to an array, and the zero after it. -/
def send (beyond : Beyond) (c : LedArray × BitVec 32) : List Access :=
  regw beyond .ledsWrMap c.1.val c.2 ++ regw beyond .ledsWrMap c.1.val 0

lemma ledsEnableLed_eq (beyond : Beyond) (arr : LedArray) (addr : BitVec 32) (en : Bool) :
    ledsEnableLed beyond arr.val addr en = send beyond (arr, command addr en) := rfl

section
variable (beyond : Beyond) (b : Board) (hold : ℕ → ℕ) {arr arr' : LedArray}

lemma run_send (w : BitVec 32) :
    b.run hold (send beyond (arr, w)) =
      (b.access (hold 1) (.write (wrValBase arr) w)).access (hold 3) (.write (wrValBase arr) 0) := by
  simp only [send, regw, lookup_ledsWrMap]
  rfl

/-- **A command does what it says** to the bits of its array. -/
lemma bits_send (w : BitVec 32) :
    (b.run hold (send beyond (arr, w))).bits arr = storeWord (b.bits arr) (w.setWidth 10) := by
  rw [run_send, Board.bits_write, Board.bits_write]
  simp only [Board.store, if_true]
  exact storeWord_zero _

lemma bits_send_of_ne (hne : arr' ≠ arr) (h0 : (b.ports arr').wrVal = 0) (w : BitVec 32) :
    (b.run hold (send beyond (arr, w))).bits arr' = b.bits arr' ∧
      ((b.run hold (send beyond (arr, w))).ports arr').wrVal = 0 := by
  have hbase : wrValBase arr ≠ wrValBase arr' := fun h => hne (wrValBase_inj.mp h).symm
  rw [run_send, Board.bits_write, Board.bits_write, Board.ports_write]
  simp only [Board.store, Board.ports_write, if_neg hbase, h0, storeWord_zero, and_self]

variable (en : ℕ → Bool)

/-- **The lights of a list switched on or off**: those of the list show what they were told, the
others what they did before. -/
lemma bits_ledsEnableLed {as : List ℕ} (has : ∀ a ∈ as, a < ledsMax) :
    (b.run hold (as.flatMap fun a =>
        ledsEnableLed beyond arr.val (BitVec.ofNat 32 a) (en a))).bits arr =
      stores (b.bits arr) (as.map fun a => (a, en a)) := by
  induction as generalizing b hold with
  | nil => rfl
  | cons a as ih =>
    have hlt : a < 30 := has a List.mem_cons_self
    have haddr : (BitVec.ofNat 32 a).toNat = a := by
      rw [BitVec.toNat_ofNat, Nat.mod_eq_of_lt (by omega)]
    rw [List.flatMap_cons, Board.run_append, ih _ _ fun a' ha' => has a' (List.mem_cons_of_mem a ha'),
      ledsEnableLed_eq, bits_send, storeWord_command _ _ _ (by rw [haddr]; exact hlt), haddr,
      List.map_cons, stores_cons]

lemma bits_ledsEnableLed_of_mem {as : List ℕ} (has : ∀ a ∈ as, a < ledsMax) {a : ℕ} (ha : a ∈ as) :
    (b.run hold (as.flatMap fun a =>
        ledsEnableLed beyond arr.val (BitVec.ofNat 32 a) (en a))).bits arr a = en a := by
  rw [bits_ledsEnableLed beyond b hold en has]
  exact stores_map ha fun b _ h => h

lemma bits_ledsEnableLed_of_ne (hne : arr' ≠ arr) (h0 : (b.ports arr').wrVal = 0) (as : List ℕ) :
    (b.run hold (as.flatMap fun a =>
        ledsEnableLed beyond arr.val (BitVec.ofNat 32 a) (en a))).bits arr' = b.bits arr' := by
  induction as generalizing b hold with
  | nil => rfl
  | cons a as ih =>
    obtain ⟨hbits, hport⟩ :=
      bits_send_of_ne beyond b hold hne h0 (command (BitVec.ofNat 32 a) (en a))
    rw [List.flatMap_cons, Board.run_append, ledsEnableLed_eq, ih _ _ hport, hbits]

/-- **What a loop over the lights of an array does**: all of them off, and those of the other
array as they were. -/
theorem bits_cleared (hother : ∀ arr' ≠ arr, (b.ports arr').wrVal = 0) :
    (∀ k < ledsMax, (b.run hold ((List.range ledsMax).flatMap fun a =>
        ledsEnableLed beyond arr.val (BitVec.ofNat 32 a) false)).bits arr k = false) ∧
      ∀ arr' ≠ arr, (b.run hold ((List.range ledsMax).flatMap fun a =>
        ledsEnableLed beyond arr.val (BitVec.ofNat 32 a) false)).bits arr' = b.bits arr' := by
  constructor
  · intro k hk
    exact bits_ledsEnableLed_of_mem beyond b hold (fun _ => false) (fun a ha => List.mem_range.mp ha)
      (List.mem_range.mpr hk)
  · intro arr' hne
    exact bits_ledsEnableLed_of_ne beyond b hold (fun _ => false) hne (hother arr' hne) _

end

/-! ### `leds_init` -/

section
variable (beyond : Beyond) (hold : ℕ → ℕ) (arr : LedArray) (b : Board)

/-- `leds_init` clears its own matrix and nothing else. -/
structure ClearsOwn : Prop where
  inTables : ∀ table i, .index table i ∈ ledsInit beyond arr → i.toNat < 2
  own : ∀ addr val, .write addr val ∈ ledsInit beyond arr →
    addr = wrValBase arr ∨ addr = resetControlBase arr
  cleared : ∀ k < ledsMax, (b.run hold (ledsInit beyond arr)).bits arr k = false
  released : ((b.run hold (ledsInit beyond arr)).ports arr).resetControl.getLsbD 1 = false
  other : ∀ arr' ≠ arr, ∀ k < ledsMax,
    (b.run hold (ledsInit beyond arr)).bits arr' k = b.bits arr' k

/-- Where the writes of the loop go. -/
def stray : BitVec 32 := beyond .ledsWrMap (resetControlBase arr)

variable {beyond hold arr b}

lemma lookup_stray : lookup beyond .ledsWrMap (resetControlBase arr) = stray beyond arr := by
  cases arr <;> rfl

lemma mem_ledsInitLoop {addr val : BitVec 32} (h : .write addr val ∈ ledsInitLoop beyond arr) :
    addr = stray beyond arr := by
  simp only [ledsInitLoop, regw, ledsEnableLed, lookup_ledsResetMap, lookup_stray, List.mem_cons,
    List.mem_flatMap, List.not_mem_nil, Access.write.injEq, reduceCtorEq, false_or, or_false,
    List.cons_append, List.nil_append] at h
  tauto

lemma mem_ledsInit {addr val : BitVec 32} (h : .write addr val ∈ ledsInit beyond arr) :
    addr = resetControlBase arr ∨ addr = stray beyond arr := by
  rcases List.mem_append.mp h with h | h
  · simp only [regw, lookup_ledsResetMap, List.mem_cons, List.not_mem_nil, Access.write.injEq,
      reduceCtorEq, false_or, or_false, List.cons_append, List.nil_append] at h
    tauto
  · exact Or.inr (mem_ledsInitLoop h)

lemma index_mem_ledsInit :
    Access.index .ledsWrMap (resetControlBase arr) ∈ ledsInit beyond arr := by
  refine List.mem_append_right _ (List.mem_flatMap.mpr ⟨0, by decide, ?_⟩)
  rw [lookup_ledsResetMap]
  exact List.mem_cons_of_mem _ List.mem_cons_self

/-- **`leds_init` never does what it is for**: its loop indexes a table of two entries with the
address of a register. -/
theorem not_clearsOwn (beyond : Beyond) (hold : ℕ → ℕ) (arr : LedArray) (b : Board) :
    ¬ ClearsOwn beyond hold arr b := by
  intro h
  have hlt := h.inTables _ _ index_mem_ledsInit
  cases arr <;> exact absurd hlt (by decide)

/-- **What it does instead**: unless memory happens to hold the address of a command register
there, no enable bit of either matrix changes. -/
theorem bits_ledsInit (hquiet : ∀ arr', (b.ports arr').wrVal = 0)
    (hstray : ∀ arr', stray beyond arr ≠ wrValBase arr') (arr' : LedArray) :
    (b.run hold (ledsInit beyond arr)).bits arr' = b.bits arr' := by
  have hstep : ∀ (b' : Board) (h : ℕ), ∀ a ∈ ledsInit beyond arr,
      (∀ c, (b'.ports c).wrVal = 0) ∧ b'.bits arr' = b.bits arr' →
        (∀ c, ((b'.access h a).ports c).wrVal = 0) ∧ (b'.access h a).bits arr' = b.bits arr' := by
    intro b' h a ha hb'
    cases a with
    | index table i => exact hb'
    | write addr val =>
      have hne : ∀ a, addr ≠ wrValBase a := by
        intro a
        rcases mem_ledsInit ha with rfl | rfl
        · exact wrValBase_ne_resetControlBase.symm
        · exact hstray a
      have hport : ∀ a, ((b'.store addr val).ports a).wrVal = 0 := fun a => by
        simp only [Board.store, if_neg (hne a), hb'.1]
      exact ⟨fun a => by rw [Board.ports_write, hport],
        by rw [Board.bits_write, hport, storeWord_zero, hb'.2]⟩
  exact (Board.run_inv (I := fun b' : Board => (∀ c, (b'.ports c).wrVal = 0) ∧
    b'.bits arr' = b.bits arr') hstep ⟨hquiet, rfl⟩ hold).2

/-- The scanner comes out of reset, unless the loop hits the register of the reset. -/
theorem resetControl_ledsInit (hstray : stray beyond arr ≠ resetControlBase arr) :
    ((b.run hold (ledsInit beyond arr)).ports arr).resetControl = 0 := by
  rw [ledsInit, Board.run_append]
  refine Board.run_inv (I := fun b' : Board => (b'.ports arr).resetControl = 0)
    (fun b' h a ha hb' => ?_) ?_ _
  · cases a with
    | index table i => exact hb'
    | write addr val =>
      have hne : addr ≠ resetControlBase arr := by
        rw [mem_ledsInitLoop ha]
        exact hstray
      rw [Board.ports_write]
      simp only [Board.store, if_neg hne]
      exact hb'
  · simp only [regw, lookup_ledsResetMap, List.cons_append, List.nil_append, Board.run]
    rw [Board.ports_write]
    simp only [Board.store, if_true]
    rfl

end

/-- Every light of both arrays on, the scanners running. -/
def allLit : Board where
  bars := ⟨⟨fun _ => true, 0, 0, 0, Pwm.reset, ModMCounter.reset⟩,
    ⟨fun _ => true, 0, 0, 0, Pwm.reset, ModMCounter.reset⟩, 0⟩
  ports := fun _ => ⟨0xff, 0, 0⟩
  ledPeriod := 0

/-- The lights stay on. -/
theorem not_clearsOwn_allLit : ¬ ClearsOwn (fun _ _ => 0) (fun _ => 0) .ledArray1 allLit := by
  intro h
  have hbits : (allLit.run (fun _ => 0) (ledsInit (fun _ _ => 0) .ledArray1)).bits .ledArray1 =
      allLit.bits .ledArray1 :=
    bits_ledsInit (fun _ => rfl) (fun arr' => by cases arr' <;> decide) .ledArray1
  have hoff := h.cleared 0 (by decide)
  rw [hbits] at hoff
  exact absurd hoff (by decide)

end Blastit.Fw.Leds
