import Blastit.Fw.Panel
import Blastit.Rtl.SsegArray
import Mathlib.Tactic.IntervalCases

/-!
`sseg_init` and `sseg_set_bcd`, and what the digits show after a sequence of calls.

A call puts its command into the register behind `sseg_wr_val` for a while, and then zero;
the array sees the command on every clock it stands there.
-/

namespace Blastit.Fw.Digits

open Blastit.Lib.Clocked Blastit.Rtl Blastit.Rtl.SsegArray Blastit.Fw.Panel

/-- The parameters of the array in `blastit_main.v`. -/
def main : Params := ⟨5, 20, 8, 24⟩

abbrev ssegMax : ℕ := 20

lemma fits_main : main.Fits := ⟨by decide, by decide⟩

def port (w : BitVec 13) (brightness : BitVec 8) (ledPeriod : BitVec 24) : In main where
  wr := w.getLsbD 12
  brightness := brightness
  sel := w.extractLsb' 7 5
  ledPeriod := ledPeriod
  digit := ⟨w.getLsbD 6, w.getLsbD 5, w.getLsbD 4, w.extractLsb' 0 4⟩

/-! ### Calls -/

structure Call where
  addr : BitVec 32
  en : Bool
  sign : Bool
  dp : Bool
  val : BitVec 32
  addr_lt : addr.toNat < ssegMax

namespace Call

def flags (c : Call) : BitVec 32 :=
  (if c.en then ssegValEn else 0) ||| (if c.sign then ssegSign else 0) |||
    (if c.dp then ssegDp else 0)

def run (c : Call) (p : Panel) : Panel := p.ssegSetBcd c.addr c.flags c.val

def digit (c : Call) : Digit := ⟨c.en, c.sign, c.dp, c.val.setWidth 4⟩

def command (c : Call) : BitVec 32 :=
  ssegWr ||| ((c.addr &&& 0x1f) <<< 7) ||| c.flags ||| (c.val &&& 0xf)

end Call

/-- The loop of `sseg_init`. -/
def ssegInit : List Call :=
  (List.finRange ssegMax).map fun (i : Fin ssegMax) =>
    ⟨BitVec.ofNat 32 i.val, false, false, false, 0, by
      have := i.isLt
      rw [BitVec.toNat_ofNat]
      omega⟩

/-- The commands the calls write. -/
def commands (p : Panel) (calls : List Call) : List (BitVec 32) :=
  (calls.foldl (fun p c => c.run p) p).ssegWrVal.drop p.ssegWrVal.length

/-- What the register holds, clock by clock: command number `i` for `hold i` clocks and one,
then zero for `gap i` clocks and one. -/
def wave (hold gap : ℕ → ℕ) (cmds : List (BitVec 32)) : List (BitVec 13) :=
  cmds.zipIdx.flatMap fun c =>
    List.replicate (hold c.2 + 1) (c.1.setWidth 13) ++ List.replicate (gap c.2 + 1) 0

/-- What a call says about the digits. -/
def say (m : Shown) (c : Call) : Shown := Function.update m c.addr.toNat (some c.digit)

/-- The digits as the calls leave them: each shows what the last call for it said. -/
def shownAfter (calls : List Call) : Shown := calls.foldl say fun _ => none

/-- `sseg_init` and a sequence of calls after it, with the timing of the writes, the
brightness and the LED period on every clock. -/
structure Session where
  before : State main
  panel : Panel
  calls : List Call
  hold : ℕ → ℕ
  gap : ℕ → ℕ
  brightness : ℕ → BitVec 8
  ledPeriod : ℕ → BitVec 24

namespace Session

variable (S : Session)

/-- The register behind `sseg_wr_val`. -/
def words : List (BitVec 13) := wave S.hold S.gap (commands S.panel (ssegInit ++ S.calls))

def ins (t : ℕ) : In main := port (S.words.getD t 0) (S.brightness t) (S.ledPeriod t)

end Session

/-! ### The command words -/

lemma flag_getLsbD (b : Bool) (k i : ℕ) :
    (if b then BitVec.twoPow 32 k else 0).getLsbD i = (b && (decide (k < 32) && decide (k = i))) := by
  cases b with
  | true => exact BitVec.getLsbD_twoPow k i
  | false => exact BitVec.getLsbD_zero

def digitFlags (d : Digit) : BitVec 32 :=
  (if d.en then ssegValEn else 0) ||| (if d.sign then ssegSign else 0) |||
    (if d.dp then ssegDp else 0)

def command (addr flags val : BitVec 32) : BitVec 32 :=
  ssegWr ||| ((addr &&& 0x1f) <<< 7) ||| flags ||| (val &&& 0xf)

section
variable (addr val : BitVec 32) (d : Digit)

lemma command_getLsbD {i : ℕ} (hi : i < 13) :
    ((command addr (digitFlags d) val).setWidth 13).getLsbD i =
      if i < 4 then val.getLsbD i
      else if i = 4 then d.dp
      else if i = 5 then d.sign
      else if i = 6 then d.en
      else if i < 12 then addr.getLsbD (i - 7)
      else true := by
  rw [command, digitFlags, show ssegWr = BitVec.twoPow 32 12 from rfl,
    show ssegValEn = BitVec.twoPow 32 6 from rfl, show ssegSign = BitVec.twoPow 32 5 from rfl,
    show ssegDp = BitVec.twoPow 32 4 from rfl]
  simp only [BitVec.getLsbD_setWidth, BitVec.getLsbD_or, BitVec.getLsbD_and, BitVec.getLsbD_shiftLeft,
    flag_getLsbD, BitVec.getLsbD_twoPow]
  interval_cases i <;> simp

lemma command_sel :
    ((command addr (digitFlags d) val).setWidth 13).extractLsb' 7 5 = addr.setWidth 5 := by
  apply BitVec.eq_of_getLsbD_eq
  intro i hi
  rw [BitVec.getLsbD_extractLsb', command_getLsbD addr val d (by omega), if_neg (by omega),
    if_neg (by omega), if_neg (by omega), if_neg (by omega), if_pos (by omega),
    Nat.add_sub_cancel_left, BitVec.getLsbD_setWidth]

lemma command_val :
    ((command addr (digitFlags d) val).setWidth 13).extractLsb' 0 4 = val.setWidth 4 := by
  apply BitVec.eq_of_getLsbD_eq
  intro i hi
  rw [BitVec.getLsbD_extractLsb', command_getLsbD addr val d (by omega), if_pos (by omega),
    Nat.zero_add, BitVec.getLsbD_setWidth]

variable (b : BitVec 8) (l : BitVec 24)

/-- **The array reads a command as it was meant**: the low five bits of the address, and the
digit. -/
lemma port_command :
    (port ((command addr (digitFlags d) val).setWidth 13) b l).wr = true ∧
      (port ((command addr (digitFlags d) val).setWidth 13) b l).sel.toNat = addr.toNat % 32 ∧
      (port ((command addr (digitFlags d) val).setWidth 13) b l).digit =
        ⟨d.en, d.sign, d.dp, val.setWidth 4⟩ := by
  refine ⟨command_getLsbD addr val d (by decide), ?_, ?_⟩
  · exact (congrArg BitVec.toNat (command_sel addr val d)).trans (BitVec.toNat_setWidth ..)
  · simp only [port, Digit.mk.injEq]
    exact ⟨command_getLsbD addr val d (by decide), command_getLsbD addr val d (by decide),
      command_getLsbD addr val d (by decide), command_val addr val d⟩

end

lemma store_command (m : Shown) (c : Call) (b : BitVec 8) (l : BitVec 24) :
    store m (port (c.command.setWidth 13) b l) = say m c := by
  obtain ⟨hwr, hsel, hdigit⟩ := port_command c.addr c.val c.digit b l
  have hlt : c.addr.toNat < 20 := c.addr_lt
  rw [Nat.mod_eq_of_lt (by omega)] at hsel
  rw [store, show c.command = command c.addr (digitFlags c.digit) c.val from rfl, if_pos hwr, hsel,
    hdigit, say]
  rfl

/-- A zero in the register writes nothing. -/
lemma store_zero (m : Shown) (b : BitVec 8) (l : BitVec 24) : store m (port 0 b l) = m := by
  simp [store, port]

lemma commands_eq (p : Panel) (calls : List Call) : commands p calls = calls.map Call.command := by
  have hrun : ∀ (calls : List Call) (p : Panel),
      (calls.foldl (fun p c => c.run p) p).ssegWrVal = p.ssegWrVal ++ calls.map Call.command := by
    intro calls
    induction calls with
    | nil => simp
    | cons c calls ih =>
      intro p
      rw [List.foldl_cons, ih]
      show (p.ssegWrVal ++ [c.command]) ++ _ = _
      simp
  rw [commands, hrun, List.drop_left]

/-! ### Sessions -/

section
variable {hold gap : ℕ → ℕ} {m : Shown} (b : BitVec 8) (l : BitVec 24)

/-- What a word in the register does to the map. -/
def storeWord (m : Shown) (w : BitVec 13) : Shown :=
  store m (port w 0 0)

lemma store_port (m : Shown) (w : BitVec 13) : store m (port w b l) = storeWord m w := rfl

/-- A word that stands for several clocks does what it does once. -/
lemma foldl_replicate (w : BitVec 13) (m : Shown) (n : ℕ) :
    (List.replicate (n + 1) w).foldl storeWord m = storeWord m w := by
  have hagain : ∀ m, storeWord (storeWord m w) w = storeWord m w := by
    intro m
    simp only [storeWord, store]
    split <;> simp
  induction n generalizing m with
  | zero => rfl
  | succ n ih => rw [List.replicate_succ, List.foldl_cons, ih, hagain]

/-- **The array has heard every command** when the register is back at zero. -/
lemma foldl_wave (cmds : List (BitVec 32)) (m : Shown) :
    (wave hold gap cmds).foldl storeWord m =
      cmds.foldl (fun m c => storeWord m (c.setWidth 13)) m := by
  have hgen : ∀ (cmds : List (BitVec 32)) (n : ℕ) (m : Shown),
      ((cmds.zipIdx n).flatMap fun c =>
          List.replicate (hold c.2 + 1) (c.1.setWidth 13) ++
            List.replicate (gap c.2 + 1) 0).foldl storeWord m =
        cmds.foldl (fun m c => storeWord m (c.setWidth 13)) m := by
    intro cmds
    induction cmds with
    | nil =>
      intro n m
      rfl
    | cons c cmds ih =>
      intro n m
      rw [List.zipIdx_cons, List.flatMap_cons, List.foldl_append, List.foldl_append,
        foldl_replicate, foldl_replicate, ih, show storeWord _ 0 = _ from store_zero _ 0 0,
        List.foldl_cons]
  exact hgen cmds 0 m

lemma foldl_commands (calls : List Call) (m : Shown) :
    (calls.map Call.command).foldl (fun m c => storeWord m (c.setWidth 13)) m =
      calls.foldl say m := by
  rw [List.foldl_map]
  exact congrArg (fun f => calls.foldl f m) (funext₂ fun m c => store_command m c 0 0)

lemma exec_store (words : List (BitVec 13)) (brightness : ℕ → BitVec 8)
    (ledPeriod : ℕ → BitVec 24) (m : Shown) (t : ℕ) :
    exec store m (fun t => port (words.getD t 0) (brightness t) (ledPeriod t)) t =
      (words.take t).foldl storeWord m := by
  induction t with
  | zero => rfl
  | succ t ih =>
    rw [exec_succ, ih, store_port, List.take_add_one, List.foldl_append]
    cases hw : words[t]? with
    | none =>
      rw [List.getD_eq_getElem?_getD, hw]
      exact store_zero _ 0 0
    | some w =>
      rw [List.getD_eq_getElem?_getD, hw]
      rfl

end

namespace Session

variable (S : Session)

lemma shown_eq {t : ℕ} (ht : S.words.length ≤ t) :
    shown S.ins t = shownAfter (ssegInit ++ S.calls) := by
  have htake : shown S.ins t = (S.words.take t).foldl storeWord fun _ => none :=
    exec_store S.words S.brightness S.ledPeriod _ t
  rw [htake, List.take_of_length_le ht, words, commands_eq, foldl_wave, foldl_commands]
  rfl

lemma shownAfter_isSome (calls : List Call) {k : ℕ} (hk : k < ssegMax) :
    (shownAfter (ssegInit ++ calls) k).isSome = true := by
  have hkeep : ∀ (calls : List Call) (m : Shown), (m k).isSome = true →
      (calls.foldl say m k).isSome = true := by
    intro calls
    induction calls with
    | nil => exact fun _ h => h
    | cons c calls ih =>
      intro m h
      refine ih _ ?_
      rw [say]
      by_cases he : k = c.addr.toNat
      · rw [he, Function.update_self]
        rfl
      · rwa [Function.update_of_ne he]
  rw [shownAfter, List.foldl_append]
  have hinit : ∀ k < ssegMax, (ssegInit.foldl say (fun _ => none) k).isSome = true := by decide
  exact hkeep _ _ (hinit k hk)

/-- At clock `t` a digit that is driven shows what the last call for it said. -/
def Follows (t : ℕ) : Prop :=
  ∀ k, (oe (run S.before S.ins t) (S.ins t)).getLsbD k = true →
    oSseg (run S.before S.ins t) (S.ins t) ≠ 0 ∧
      ∃ d, shownAfter (ssegInit ++ S.calls) k = some d ∧
        oSseg (run S.before S.ins t) (S.ins t) = sseg d

lemma follows {t : ℕ} (ht : S.words.length ≤ t) : S.Follows t := by
  have hshows : Shows S.before S.ins t :=
    shows_of_written S.before S.ins fits_main fun k hk => by
      rw [S.shown_eq ht]
      exact shownAfter_isSome _ hk
  intro k hk
  obtain ⟨hlit, d, hd, hseg⟩ := hshows.own k hk
  rw [S.shown_eq ht] at hd
  exact ⟨hlit, d, hd, hseg⟩

end Session

/-- **The digits show what was last written to them**: for an array of any size, on every
clock after a reset on which all have been written; and for the one on the panel, on every
clock after `sseg_init` and a sequence of calls. -/
theorem digits_show_written :
    (∀ (p : Params) (s : State p) (ins : ℕ → In p) (t : ℕ), p.Fits →
      (∀ k < p.ssegN, (shown ins t k).isSome = true) → Shows s ins t) ∧
    ∀ (S : Session) (t : ℕ), S.words.length ≤ t → S.Follows t :=
  ⟨fun _ s ins _ hp hall => shows_of_written s ins hp hall, fun S _ ht => S.follows ht⟩

/-- Three digits, with a 5, a 6 and a 7 written to them one after the other. -/
def threeDigits : Params := ⟨2, 3, 2, 1⟩

def threeWrites (t : ℕ) : In threeDigits :=
  ⟨decide (t < 3), 3, BitVec.ofNat 2 t, 0, ⟨true, false, false, BitVec.ofNat 4 (5 + t)⟩⟩

def threeBefore : State threeDigits := ⟨fun _ => 0xff, 1, ⟨3⟩, ⟨1, true⟩⟩

/-- Three calls after `sseg_init`, the last for the digit of the first, with a word a clock and
an LED tick a clock. -/
def threeCalls : Session where
  before := ⟨fun _ => 0xff, 1, ⟨3⟩, ⟨1, true⟩⟩
  panel := ⟨0, 0, 0, fun _ => 0, [], []⟩
  calls := [⟨3, true, false, false, 7, by decide⟩, ⟨4, true, true, false, 2, by decide⟩,
    ⟨3, true, false, true, 5, by decide⟩]
  hold _ := 0
  gap _ := 0
  brightness _ := 0xff
  ledPeriod _ := 0

/-- Each of the three digits is driven in its turn, with its own value; and so are the two that
were called for. -/
theorem digits_show_three :
    (∀ k < 3, (oe (run threeBefore threeWrites (4 + k)) (threeWrites (4 + k))).toNat = 2 ^ k ∧
      oSseg (run threeBefore threeWrites (4 + k)) (threeWrites (4 + k)) =
        sseg ⟨true, false, false, BitVec.ofNat 4 (5 + k)⟩) ∧
    oSseg (run threeCalls.before threeCalls.ins 64) (threeCalls.ins 64) =
      sseg ⟨true, false, true, 5⟩ ∧
    oSseg (run threeCalls.before threeCalls.ins 65) (threeCalls.ins 65) =
      sseg ⟨true, true, false, 2⟩ := by
  obtain ⟨harray, hpanel⟩ := digits_show_written
  have hlen : threeCalls.words.length = 46 := by decide +kernel
  have hoe : ∀ k < 3, (oe (run threeBefore threeWrites (4 + k)) (threeWrites (4 + k))).toNat =
      2 ^ k := by decide
  have hlast : ∀ k < 3, shown threeWrites (4 + k) k =
      some ⟨true, false, false, BitVec.ofNat 4 (5 + k)⟩ := by decide
  refine ⟨fun k hk => ⟨hoe k hk, ?_⟩, ?_, ?_⟩
  · have hall : ∀ j < 3, ∀ i < 3, (shown threeWrites (4 + j) i).isSome = true := by decide
    have hshows : Shows threeBefore threeWrites (4 + k) :=
      harray threeDigits _ _ _ ⟨by decide, by decide⟩ (hall k hk)
    have hbit : (oe (run threeBefore threeWrites (4 + k)) (threeWrites (4 + k))).getLsbD k =
        true := by
      rw [BitVec.getLsbD, hoe k hk, Nat.testBit_two_pow_self]
    obtain ⟨-, d, hd, hseg⟩ := hshows.own k hbit
    rw [hlast k hk] at hd
    rw [hseg, ← Option.some.inj hd]
  · obtain ⟨-, d, hd, hseg⟩ := hpanel threeCalls 64 (by omega) 3 (by decide +kernel)
    rw [hseg, ← Option.some.inj hd]
    rfl
  · obtain ⟨-, d, hd, hseg⟩ := hpanel threeCalls 65 (by omega) 4 (by decide +kernel)
    rw [hseg, ← Option.some.inj hd]
    rfl

end Blastit.Fw.Digits
