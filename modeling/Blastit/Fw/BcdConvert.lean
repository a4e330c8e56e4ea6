import Blastit.Lib.Mask
import Blastit.Lib.Polls
import Blastit.Rtl.Bin2bcd
import Mathlib.Tactic.IntervalCases

/-!
`bcd_convert`: the processor's side of a conversion, over the registers of the bus.

Accesses take time, so the converter runs on between them; how many clocks lie between any
two is left open.
-/

namespace Blastit.Fw.BcdConvert

open Blastit.Lib Blastit.Lib.Clocked Blastit.Lib.Decimal Blastit.Lib.Polls
open Blastit.Rtl Blastit.Rtl.Bin2bcd

/-- `BCD_N` and `BCD_BIN_N - 1`. -/
def main : Params := ⟨4, 14⟩

/-! ### The board -/

/-- `bcd1`, and the registers behind `bcd1_bin` and `bcd1_control`. -/
structure Board where
  bcd1 : State main
  bcd1Bin : BitVec 15
  bcd1Control : BitVec 3

namespace Board

def bcd1Start (b : Board) : Bool := b.bcd1Control.getLsbD 0

def bcd1Reset (b : Board) : Bool := b.bcd1Control.getLsbD 2

def bcd1In (b : Board) : In main := ⟨b.bcd1Start, b.bcd1Bin.getLsbD 14, b.bcd1Bin.setWidth 14⟩

def next (b : Board) : Board :=
  { b with bcd1 := if b.bcd1Reset then reset else Bin2bcd.next b.bcd1 b.bcd1In }

def wait (b : Board) (n : ℕ) : Board := exec (fun b (_ : Unit) => b.next) b (fun _ => ()) n

/-- `bcd1_status`; the counter of conversions is outside the converter. -/
def bcd1Status (b : Board) (counterOf : Bool) : BitVec 2 :=
  BitVec.ofBoolListBE [ready b.bcd1, counterOf]

def bcd1Bcd (b : Board) : BitVec 16 := bcd b.bcd1 3 ++ bcd b.bcd1 2 ++ bcd b.bcd1 1 ++ bcd b.bcd1 0

end Board

/-! ### The firmware -/

def bcd1ControlStart : BitVec 32 := BitVec.twoPow 32 0

def bcd1ControlTcReset : BitVec 32 := BitVec.twoPow 32 1

def bcd1ControlReset : BitVec 32 := BitVec.twoPow 32 2

def bcd1StatusReady : BitVec 32 := BitVec.twoPow 32 1

/-- The reads of a loop that polls the status: their clocks, and the overflow they find. -/
structure Reads where
  clock : ℕ → ℕ
  counterOf : ℕ → Bool
  mono : StrictMono clock

/-- `while (!(REGR(BCD1_STATUS_BASE) & BCD1_STATUS_READY));`: the board at the read that ends
the loop; `none` while it has not ended. -/
def pollReady (r : Reads) (fuel : ℕ) (b : Board) : Option Board :=
  (poll (fun k => !(((b.wait (r.clock k)).bcd1Status (r.counterOf k)).setWidth 32 &&&
    bcd1StatusReady == 0)) fuel 0).map fun k => b.wait (r.clock k)

/-- The clocks between the accesses of a call. -/
structure Timing where
  before : Reads
  toBin : ℕ
  toControl : ℕ
  toStart : ℕ
  hold : ℕ
  after : Reads
  toRead : ℕ

def bcdInit (T : Timing) (fuel : ℕ) (b : Board) : Option Board :=
  let b := { b with bcd1Control := (bcd1ControlTcReset ||| bcd1ControlReset).setWidth 3 }
  let b := b.wait (T.hold + 1)
  let b := { b with bcd1Control := 0 }
  pollReady T.after fuel b

/-- `bcd_convert`: the board after it and `bcd`; `none` while it has not returned. -/
def bcdConvert (T : Timing) (bin : BitVec 32) (fuel : ℕ) (b : Board) :
    Option (Board × List (BitVec 8)) := do
  let b ← pollReady T.before fuel b
  let b := b.wait T.toBin
  let b := { b with bcd1Bin := bin.setWidth 15 }
  let b := b.wait T.toControl
  let origControl := b.bcd1Control.setWidth 32
  let b := b.wait T.toStart
  let b := { b with bcd1Control := (origControl ||| bcd1ControlStart).setWidth 3 }
  let b := b.wait (T.hold + 1)
  let b := { b with bcd1Control := origControl.setWidth 3 }
  let b ← pollReady T.after fuel b
  let b := b.wait T.toRead
  let t := b.bcd1Bcd.setWidth 32
  return (b, [((t &&& 0xf000) >>> 12).setWidth 8, ((t &&& 0xf00) >>> 8).setWidth 8,
    ((t &&& 0xf0) >>> 4).setWidth 8, (t &&& 0xf).setWidth 8])

/-- Boards the firmware has initialised, and used for conversions since. -/
inductive InUse : Board → Prop
  | init {T fuel b b'} (h : bcdInit T fuel b = some b') : InUse b'
  | wait {b} (n : ℕ) (h : InUse b) : InUse (b.wait n)
  | convert {T bin fuel b b' out} (h : InUse b) (hc : bcdConvert T bin fuel b = some (b', out)) :
    InUse b'

def digits (v : ℕ) : List (BitVec 8) := [3, 2, 1, 0].map fun g => BitVec.ofNat 8 (digit v g)

/-- A call for `bin` returns, with the digits of `v`. -/
def Returns (b : Board) (bin : BitVec 32) (v : ℕ) : Prop :=
  ∀ T : Timing, (∃ fuel b' out, bcdConvert T bin fuel b = some (b', out)) ∧
    ∀ fuel b' out, bcdConvert T bin fuel b = some (b', out) → out = digits v

/-! ### Waiting -/

section
variable {b b' : Board} {n fuel : ℕ} {r : Reads}

namespace Board

/-- The converter neither in reset nor started. -/
structure Quiet (b : Board) : Prop where
  start : b.bcd1Start = false
  reset : b.bcd1Reset = false

lemma wait_succ (b : Board) (n : ℕ) : b.wait (n + 1) = (b.wait n).next := rfl

@[simp] lemma wait_bin (b : Board) (n : ℕ) : (b.wait n).bcd1Bin = b.bcd1Bin := by
  induction n with
  | zero => rfl
  | succ n ih => rw [wait_succ, ← ih, next]

@[simp] lemma wait_control (b : Board) (n : ℕ) : (b.wait n).bcd1Control = b.bcd1Control := by
  induction n with
  | zero => rfl
  | succ n ih => rw [wait_succ, ← ih, next]

lemma wait_add (b : Board) (m n : ℕ) : b.wait (m + n) = (b.wait m).wait n := exec_add m n

@[simp] lemma wait_start (b : Board) (n : ℕ) : (b.wait n).bcd1Start = b.bcd1Start := by
  rw [bcd1Start, wait_control, bcd1Start]

@[simp] lemma wait_reset (b : Board) (n : ℕ) : (b.wait n).bcd1Reset = b.bcd1Reset := by
  rw [bcd1Reset, wait_control, bcd1Reset]

@[simp] lemma wait_in (b : Board) (n : ℕ) : (b.wait n).bcd1In = b.bcd1In := by
  rw [bcd1In, wait_start, wait_bin, bcd1In]

lemma Quiet.wait (h : b.Quiet) (n : ℕ) : (b.wait n).Quiet :=
  ⟨(wait_start b n).trans h.start, (wait_reset b n).trans h.reset⟩

lemma wait_bcd1 (h : b.bcd1Reset = false) (n : ℕ) :
    (b.wait n).bcd1 = exec Bin2bcd.next b.bcd1 (fun _ => b.bcd1In) n := by
  induction n with
  | zero => rfl
  | succ n ih =>
    rw [exec_succ, ← ih, ← wait_in b n, wait_succ, next, wait_reset, h]
    rfl

end Board

lemma Board.Quiet.wait_eq (h : b.Quiet) (hidle : b.bcd1.stateReg = .idle) (n : ℕ) :
    b.wait n = b := by
  induction n with
  | zero => rfl
  | succ n ih =>
    rw [Board.wait_succ, ih, Board.next, h.reset, next_of_idle hidle h.start]
    rfl

lemma busy_wait {L : BitVec (main.bcdN * 3 + 1)} (hr : b.bcd1Reset = false)
    (hs : b.bcd1Start = true → loaded b.bcd1In = L) (h : Busy L b.bcd1) (n : ℕ) :
    Busy L (b.wait n).bcd1 := by
  rw [Board.wait_bcd1 hr]
  exact exec_inv h (fun _ i hb (hi : i = b.bcd1In) => hb.next (by decide) (hi ▸ hs)) n fun _ _ => rfl

lemma status_ready (b : Board) (counterOf : Bool) :
    (!((b.bcd1Status counterOf).setWidth 32 &&& bcd1StatusReady == 0)) = ready b.bcd1 := by
  rw [bcd1StatusReady, Mask.test_eq _ (by decide), BitVec.getLsbD_setWidth]
  exact (Bool.true_and _).trans BitVec.getLsbD_ofBoolListBE

/-- A loop that ends does so at a clock at which the converter is ready. -/
lemma pollReady_spec (h : pollReady r fuel b = some b') :
    ∃ n, b' = b.wait n ∧ ready b'.bcd1 = true := by
  obtain ⟨k, hk, rfl⟩ := Option.map_eq_some_iff.mp h
  have hready := (first_of_poll hk).holds
  rw [status_ready] at hready
  exact ⟨_, rfl, hready⟩

lemma exists_pollReady (r : Reads) (h : b.Quiet) : ∃ fuel b', pollReady r fuel b = some b' := by
  have hrest : ∃ n, ∀ m, n ≤ m →
      (exec Bin2bcd.next b.bcd1 (fun _ => b.bcd1In) m).stateReg = .idle :=
    exists_idle (fun _ => h.start) b.bcd1
  obtain ⟨n, hn⟩ := hrest
  have hready : ready (b.wait (r.clock n)).bcd1 = true := by
    rw [Board.wait_bcd1 h.reset, ready, hn _ r.mono.le_apply]
    rfl
  obtain ⟨fuel, k, hk⟩ := (exists_poll_iff (p := fun k =>
    !(((b.wait (r.clock k)).bcd1Status (r.counterOf k)).setWidth 32 &&& bcd1StatusReady == 0))
    (k := 0)).mpr ⟨n, Nat.zero_le n, by rw [status_ready]; exact hready⟩
  exact ⟨fuel, _, by rw [pollReady, hk]; rfl⟩

lemma pollReady_mono {fuel' : ℕ} (h : pollReady r fuel b = some b') (hle : fuel ≤ fuel') :
    pollReady r fuel' b = some b' := by
  obtain ⟨k, hk, rfl⟩ := Option.map_eq_some_iff.mp h
  rw [pollReady, poll_mono hk hle]
  rfl

/-! ### A call -/

def input (bin : BitVec 32) : In main :=
  ⟨true, (bin.setWidth 15).getLsbD 14, (bin.setWidth 15).setWidth 14⟩

lemma nibbles (d3 d2 d1 d0 : BitVec 4) {t : BitVec 32}
    (ht : t = (d3 ++ d2 ++ d1 ++ d0).setWidth 32) :
    [((t &&& 0xf000) >>> 12).setWidth 8, ((t &&& 0xf00) >>> 8).setWidth 8,
        ((t &&& 0xf0) >>> 4).setWidth 8, (t &&& 0xf).setWidth 8] =
      [d3.setWidth 8, d2.setWidth 8, d1.setWidth 8, d0.setWidth 8] := by
  subst ht
  simp only [List.cons.injEq, and_true]
  refine ⟨?_, ?_, ?_, ?_⟩ <;>
    · apply BitVec.eq_of_getLsbD_eq
      intro i hi
      simp only [BitVec.getLsbD_setWidth, BitVec.getLsbD_ushiftRight, BitVec.getLsbD_and,
        BitVec.getLsbD_append]
      interval_cases i <;> simp

/-- The board as a call starts a conversion. -/
def started (bin : BitVec 32) (b : Board) : Board :=
  { b with
    bcd1Bin := bin.setWidth 15
    bcd1Control := (b.bcd1Control.setWidth 32 ||| bcd1ControlStart).setWidth 3 }

/-- The board as a call clears the start bit. -/
def cleared (T : Timing) (bin : BitVec 32) (b : Board) : Board :=
  { (started bin b).wait (T.hold + 1) with bcd1Control := b.bcd1Control }

@[simp] lemma cleared_control (T : Timing) (bin : BitVec 32) (b : Board) :
    (cleared T bin b).bcd1Control = b.bcd1Control := rfl

lemma Board.Quiet.cleared (T : Timing) (bin : BitVec 32) (h : b.Quiet) : (cleared T bin b).Quiet :=
  ⟨h.start, h.reset⟩

/-- As long as the start is held, and longer if it is held for long. -/
lemma busy_started (bin : BitVec 32) (h : b.Quiet) (hidle : b.bcd1.stateReg = .idle) (n : ℕ) :
    Busy (loaded (input bin)) ((started bin b).wait (n + 1)).bcd1 := by
  have hstart : (started bin b).bcd1Start = true := by
    simp [Board.bcd1Start, started, bcd1ControlStart]
  have hreset : (started bin b).bcd1Reset = false := by
    simpa [Board.bcd1Reset, started, bcd1ControlStart] using h.reset
  have hin : (started bin b).bcd1In = input bin := by
    rw [Board.bcd1In, hstart]
    rfl
  have hone : Busy (loaded (input bin)) ((started bin b).wait 1).bcd1 := by
    rw [Board.wait_bcd1 hreset, exec_succ, exec_zero, hin]
    exact .after (Nat.zero_le _) (after_start hidle rfl)
  rw [Nat.add_comm, Board.wait_add]
  refine busy_wait ((Board.wait_reset _ _).trans hreset) (fun _ => ?_) hone n
  rw [Board.wait_in, hin]

lemma bcdConvert_eq (T : Timing) (bin : BitVec 32) (fuel : ℕ) (h : b.Quiet) :
    bcdConvert T bin fuel b = do
      let b₁ ← pollReady T.before fuel b
      let b₂ ← pollReady T.after fuel (cleared T bin b₁)
      let b₃ := b₂.wait T.toRead
      return (b₃, [bcd b₃.bcd1 3, bcd b₃.bcd1 2, bcd b₃.bcd1 1, bcd b₃.bcd1 0].map
        (BitVec.setWidth 8)) := by
  unfold bcdConvert
  refine Option.bind_congr fun b₁ h₁ => ?_
  obtain ⟨n, rfl, hready⟩ := pollReady_spec h₁
  have hidle : (b.wait n).bcd1.stateReg = .idle := eq_of_beq hready
  have hquiet := h.wait n
  -- writing the input changes neither
  have hquiet' : Board.Quiet { b.wait n with bcd1Bin := bin.setWidth 15 } :=
    ⟨hquiet.start, hquiet.reset⟩
  have hcontrol : ∀ c : BitVec 3, (c.setWidth 32).setWidth 3 = c := fun c => by simp
  simp only [hquiet.wait_eq hidle, hquiet'.wait_eq hidle, hcontrol]
  refine Option.bind_congr fun b₂ _ => ?_
  exact congrArg (fun out => some (b₂.wait T.toRead, out)) (nibbles _ _ _ _ rfl)

lemma setWidth_bcd {s : State main} {x : ℕ} (h : Shows s x) (g : ℕ) :
    (bcd s g).setWidth 8 = BitVec.ofNat 8 (digit x g) := by
  rw [← h g]
  exact (BitVec.ofNat_toNat 8 (bcd s g)).symm

lemma bcdConvert_spec {T : Timing} {bin : BitVec 32} {out : List (BitVec 8)} (h : b.Quiet)
    (hc : bcdConvert T bin fuel b = some (b', out)) :
    b'.bcd1Control = b.bcd1Control ∧
      Shows b'.bcd1 (topBits (loaded (input bin)) (passes main.bcdN)) ∧
      out = digits (topBits (loaded (input bin)) (passes main.bcdN)) := by
  rw [bcdConvert_eq T bin fuel h] at hc
  obtain ⟨b₁, h₁, hc⟩ := Option.bind_eq_some_iff.mp hc
  obtain ⟨n₁, rfl, hready₁⟩ := pollReady_spec h₁
  obtain ⟨b₂, h₂, hc⟩ := Option.bind_eq_some_iff.mp hc
  obtain ⟨n₂, hb₂, hready₂⟩ := pollReady_spec h₂
  cases hc
  have hquiet := h.wait n₁
  have hcleared := hquiet.cleared T bin
  have hbusy := busy_wait hcleared.reset (fun hs => by rw [hcleared.start] at hs; cases hs)
    (busy_started bin hquiet (eq_of_beq hready₁) T.hold) n₂
  rw [← hb₂] at hbusy
  have hquiet₂ : b₂.Quiet := hb₂ ▸ hcleared.wait n₂
  rw [hquiet₂.wait_eq (eq_of_beq hready₂)]
  have hshows := hbusy.shows_of_ready hready₂
  refine ⟨by rw [hb₂]; simp, hshows, ?_⟩
  simp [digits, setWidth_bcd hshows]

lemma exists_bcdConvert (T : Timing) (bin : BitVec 32) (h : b.Quiet) :
    ∃ fuel b' out, bcdConvert T bin fuel b = some (b', out) := by
  obtain ⟨fuel₁, b₁, h₁⟩ := exists_pollReady T.before h
  obtain ⟨n, rfl, -⟩ := pollReady_spec h₁
  have hquiet := h.wait n
  obtain ⟨fuel₂, b₂, h₂⟩ := exists_pollReady T.after (hquiet.cleared T bin)
  have hret : ∃ r, bcdConvert T bin (max fuel₁ fuel₂) b = some r := by
    rw [bcdConvert_eq T bin _ h, pollReady_mono h₁ (Nat.le_max_left _ _)]
    exact ⟨_, congrArg (Option.bind · _) (pollReady_mono h₂ (Nat.le_max_right _ _))⟩
  obtain ⟨⟨b', out⟩, hret⟩ := hret
  exact ⟨_, b', out, hret⟩

lemma InUse.control (h : InUse b) : b.bcd1Control = 0 := by
  induction h with
  | init h =>
    obtain ⟨n, rfl, -⟩ := pollReady_spec h
    exact Board.wait_control _ n
  | wait n _ ih => rw [Board.wait_control, ih]
  | convert _ hc ih =>
    rw [(bcdConvert_spec ⟨by rw [Board.bcd1Start, ih]; rfl, by rw [Board.bcd1Reset, ih]; rfl⟩ hc).1,
      ih]

lemma InUse.quiet (h : InUse b) : b.Quiet :=
  ⟨by rw [Board.bcd1Start, h.control]; rfl, by rw [Board.bcd1Reset, h.control]; rfl⟩

lemma digits_eq_digits {x v : ℕ} : digits x = digits v ↔ ∀ g < 4, digit x g = digit v g := by
  have hbyte : ∀ g, BitVec.ofNat 8 (digit x g) = BitVec.ofNat 8 (digit v g) ↔
      digit x g = digit v g := by
    intro g
    have hx := digit_lt x g
    have hv := digit_lt v g
    rw [← BitVec.toNat_inj, BitVec.toNat_ofNat, BitVec.toNat_ofNat, Nat.mod_eq_of_lt (by omega),
      Nat.mod_eq_of_lt (by omega)]
  simp only [digits, List.map_cons, List.map_nil, List.cons.injEq, hbyte, and_true]
  constructor
  · rintro ⟨h3, h2, h1, h0⟩ g hg
    interval_cases g <;> assumption
  · intro h
    exact ⟨h 3 (by decide), h 2 (by decide), h 1 (by decide), h 0 (by decide)⟩

/-- Accesses one after another, the start bit held for a clock. -/
def steady : Timing where
  before := ⟨id, fun _ => false, strictMono_id⟩
  toBin := 1
  toControl := 1
  toStart := 1
  hold := 0
  after := ⟨id, fun _ => false, strictMono_id⟩
  toRead := 1

/-- **A call is as good as the conversion it starts.** -/
lemma returns_iff {bin : BitVec 32} {v : ℕ} (h : b.Quiet) (hv : v < 10 ^ 4) :
    Returns b bin v ↔ Converts main (input bin).sign (input bin).bin v := by
  rw [converts_iff (by decide) hv, ← digits_eq_iff (show v < 10 ^ main.bcdN from hv)]
  constructor
  · intro hret
    obtain ⟨⟨fuel, b', out, hc⟩, hall⟩ := hret steady
    have hout := hall fuel b' out hc
    rw [(bcdConvert_spec h hc).2.2, digits_eq_digits] at hout
    exact hout
  · intro hdigits T
    refine ⟨exists_bcdConvert T bin h, fun fuel b' out hc => ?_⟩
    rw [(bcdConvert_spec h hc).2.2, digits_eq_digits]
    exact hdigits

end

/-! ### What comes out right -/

section
variable {b : Board} {v : ℕ}

lemma input_sign (bin : BitVec 32) :
    (input bin).sign = decide (bin.toNat % 2 ^ 15 / 2 ^ 14 % 2 = 1) := by
  show (bin.setWidth 15).toNat.testBit 14 = _
  rw [Nat.testBit_eq_decide_div_mod_eq, BitVec.toNat_setWidth]

lemma input_bin (bin : BitVec 32) : (input bin).bin.toNat = bin.toNat % 2 ^ 15 % 2 ^ 14 := by
  show ((bin.setWidth 15).setWidth 14).toNat = _
  rw [BitVec.toNat_setWidth, BitVec.toNat_setWidth]

lemma returns_pos_iff (h : b.Quiet) (hv : v ≤ 9999) :
    Returns b (BitVec.ofNat 32 v) v ↔ v < 8192 := by
  have hval : (BitVec.ofNat 32 v).toNat = v := by
    rw [BitVec.toNat_ofNat]
    omega
  have hsign : (input (BitVec.ofNat 32 v)).sign = false := by
    rw [input_sign, hval, decide_eq_false_iff_not]
    omega
  have hbin : (input (BitVec.ofNat 32 v)).bin.toNat = v := by
    rw [input_bin, hval]
    omega
  have hlt : (input (BitVec.ofNat 32 v)).bin.toNat < 10 ^ main.bcdN := by
    rw [hbin]
    exact Nat.lt_succ_of_le hv
  have hconv := converts_pos_iff (by decide) hlt
  rw [hbin] at hconv
  rw [returns_iff h (by omega), hsign, hconv]
  show v = 0 ∨ 4 ≤ 4 ∧ v < 2 ^ 13 ↔ v < 8192
  omega

lemma returns_neg_iff (h : b.Quiet) (hv : v ≤ 9999) :
    Returns b (-BitVec.ofNat 32 v) v ↔ v < 8192 := by
  rcases Nat.eq_zero_or_pos v with rfl | hpos
  · exact returns_pos_iff h hv
  have hval : (-BitVec.ofNat 32 v).toNat = 2 ^ 32 - v := by
    rw [BitVec.toNat_neg, BitVec.toNat_ofNat]
    omega
  have hsign : (input (-BitVec.ofNat 32 v)).sign = true := by
    rw [input_sign, hval, decide_eq_true_eq]
    omega
  have hbin : (input (-BitVec.ofNat 32 v)).bin = BitVec.ofNat main.binN (2 ^ main.binN - v) := by
    apply BitVec.eq_of_toNat_eq
    rw [input_bin, hval, BitVec.toNat_ofNat]
    show _ = (2 ^ 14 - v) % 2 ^ 14
    omega
  have hfew : ∀ c ∈ coincidences, c.1 < 4 := by decide
  rw [returns_iff h (by omega), hsign, hbin, converts_neg_iff (by decide) hpos
    (show v < 2 ^ 14 by omega) (show v < 10 ^ 4 by omega)]
  constructor
  · rintro (⟨-, -, hfit⟩ | hmem)
    · exact hfit
    · exact absurd (hfew _ hmem) (Nat.lt_irrefl 4)
  · intro hlt
    exact Or.inl ⟨by decide, by decide, hlt⟩

end

/-- **What comes out right**: from four digits on the numbers that fit the shift register, and
their complements if the input is as wide as it; with fewer digits zero, and a few complements
by coincidence. On the panel, the numbers below 8192. -/
theorem converted_right_iff (p : Params) (hN : 1 ≤ p.bcdN) (_ : 1 ≤ p.binN) :
    (∀ bin : BitVec p.binN, bin.toNat < 10 ^ p.bcdN →
      (Converts p false bin bin.toNat ↔
        bin.toNat = 0 ∨ 4 ≤ p.bcdN ∧ bin.toNat < 2 ^ (p.bcdN * 3 + 1))) ∧
    (∀ v, 0 < v → v < 10 ^ p.bcdN → v < 2 ^ p.binN →
      (Converts p true (BitVec.ofNat p.binN (2 ^ p.binN - v)) v ↔
        (4 ≤ p.bcdN ∧ p.bcdN * 3 + 1 ≤ p.binN ∧ v < 2 ^ (p.bcdN * 3 + 1)) ∨
          (p.bcdN, p.binN, v) ∈ coincidences)) ∧
    ∀ b, InUse b → ∀ v ≤ 9999,
      (Returns b (BitVec.ofNat 32 v) v ↔ v < 8192) ∧
      (Returns b (-BitVec.ofNat 32 v) v ↔ v < 8192) :=
  ⟨fun _ hbin => converts_pos_iff hN hbin, fun _ hpos h10 hv => converts_neg_iff hN hpos hv h10,
    fun _ h _ hv => ⟨returns_pos_iff h.quiet hv, returns_neg_iff h.quiet hv⟩⟩

lemma exists_inUse : ∃ b, InUse b := by
  obtain ⟨fuel, b, h⟩ := exists_pollReady steady.after
    (b := { Board.wait ⟨reset, 0, 6⟩ 1 with bcd1Control := 0 }) ⟨rfl, rfl⟩
  exact ⟨b, .init (T := steady) (b := ⟨reset, 0, 0⟩) h⟩

theorem converted_right_at_1234 :
    Converts main false 1234 1234 ∧ Converts main true (BitVec.ofNat 14 (2 ^ 14 - 1234)) 1234 ∧
      ∃ b, InUse b ∧ Returns b 1234 1234 ∧ Returns b (-1234) 1234 := by
  obtain ⟨b, hb⟩ := exists_inUse
  obtain ⟨hpos, hneg, hpanel⟩ := converted_right_iff main (by decide) (by decide)
  exact ⟨(hpos 1234 (by decide)).mpr (by decide),
    (hneg 1234 (by decide) (by decide) (by decide)).mpr (by decide),
    b, hb, (hpanel b hb 1234 (by decide)).1.mpr (by decide),
    (hpanel b hb 1234 (by decide)).2.mpr (by decide)⟩

/-- 9999 is less than `10 ^ BCD_N` and than `2 ^ BIN_N`, and comes out as 1807. -/
theorem converted_wrong_at_9999 :
    ¬ Converts main false 9999 9999 ∧
      ∃ b, InUse b ∧ Returns b 9999 1807 ∧ ¬ Returns b 9999 9999 := by
  obtain ⟨b, hb⟩ := exists_inUse
  have hwrong : ¬ Returns b 9999 9999 := fun h =>
    absurd ((returns_pos_iff hb.quiet (by decide)).mp h) (by decide)
  refine ⟨fun h => hwrong ((returns_iff hb.quiet (by decide)).mpr h), b, hb, ?_, hwrong⟩
  rw [returns_iff hb.quiet (by decide), converts_iff (by decide) (by decide)]
  decide

end Blastit.Fw.BcdConvert
