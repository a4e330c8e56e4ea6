import Blastit.Fw.BcdConvert
import Blastit.Fw.Digits
import Blastit.Fw.Display
import Blastit.Lib.Stores
import Mathlib.Algebra.Order.Floor.Semifield

/-!
`readout_update`: what the row of a readout shows.

The two loops of the routine run over the digits and over the positions at once; a negative
value shifts the one against the other, and drops the last digit.
-/

namespace Blastit.Fw.Readout

open Blastit.Lib.Clocked Blastit.Lib.Decimal Blastit.Lib.Stores
open Blastit.Rtl Blastit.Rtl.SsegArray
open Blastit.Fw.Panel Blastit.Fw.Display Blastit.Fw.Digits

/-- `bcd_convert` returns the four decimal digits of its argument. -/
def ConvertsDecimal (bcd1 : BitVec 32 → BitVec 32) : Prop :=
  ∀ x < 10000, bcdConvert bcd1 (BitVec.ofNat 32 x) = BcdConvert.digits x

/-- The address of position `k` of a row, as `sseg_set_bcd` sends it. -/
def position (t : ReadoutTask) (k : ℕ) : ℕ := (t.ssegIdx + BitVec.ofNat 32 k).toNat % 32

def places : List ℕ := [1, 2, 3, 4]

/-! ### What the row is for -/

def blank : Digit := ⟨false, false, false, 0⟩

def minus : Digit := ⟨true, true, false, 0⟩

def number (v : ℚ) : ℕ := if v < 0 then ⌊|v|⌋₊ else ⌊10 * v⌋₊

def point (v : ℚ) : ℕ := if v < 0 then 4 else 3

/-- What position `k` is to show: the number ends at position 4, and its leading zeros are
blanked up to the point. -/
def rowDigit (v : ℚ) (k : ℕ) : Digit :=
  if v < 0 ∧ k = 1 then minus
  else if k < point v ∧ number v < 10 ^ (4 - k) then blank
  else ⟨true, false, decide (k = point v), BitVec.ofNat 4 (digit (number v) (4 - k))⟩

/-- The address a command names, if it is one. -/
def addressed (c : BitVec 32) : Option ℕ :=
  let i := port (c.setWidth 13) 0 0
  if i.wr then some i.sel.toNat else none

/-- The array with a register that holds the commands one after the other, `n` clocks on. -/
def hear (A : SsegArray.State main) (hold gap : ℕ → ℕ) (cmds : List (BitVec 32))
    (brightness : ℕ → BitVec 8) (ledPeriod : ℕ → BitVec 24) (n : ℕ) : SsegArray.State main :=
  exec SsegArray.next A
    (fun t => port ((wave hold gap cmds).getD t 0) (brightness t) (ledPeriod t)) n

/-- The commands write each place of the row once and nothing else, and leave `v` in it,
whatever it showed before. -/
structure Spells (t : ReadoutTask) (v : ℚ) (cmds : List (BitVec 32)) : Prop where
  once : ∀ k ∈ places, (cmds.map addressed).count (some (position t k)) = 1
  never : some (position t 0) ∉ cmds.map addressed
  row : ∀ (hold gap : ℕ → ℕ) (m : Shown), ∀ k ∈ places,
    (wave hold gap cmds).foldl storeWord m (position t k) = some (rowDigit v k)
  rest : ∀ (hold gap : ℕ → ℕ) (m : Shown) (a : ℕ), (∀ k ∈ places, a ≠ position t k) →
    (wave hold gap cmds).foldl storeWord m a = m a
  lit : ∀ A hold gap brightness ledPeriod n, (wave hold gap cmds).length ≤ n →
    ∀ k ∈ places, position t k < ssegMax →
      (hear A hold gap cmds brightness ledPeriod n).ssegArrReg (position t k) = sseg (rowDigit v k)

def written (bcd1 : BitVec 32 → BitVec 32) (t : ReadoutTask) (s : Display.State) : List (BitVec 32) :=
  (readoutUpdate bcd1 t s).panel.ssegWrVal.drop s.panel.ssegWrVal.length

/-! ### The loops -/

/-- How many zeros the first loop blanks. -/
def leading : ℕ → List (BitVec 8) → ℕ
  | n + 1, d :: ds => if d = 0 then leading n ds + 1 else 0
  | _, _ => 0

section
variable (t : ReadoutTask)

/-- The command that shows `d` at position `k`. -/
def showAt (k : ℕ) (d : Digit) : BitVec 32 :=
  command (t.ssegIdx + BitVec.ofNat 32 k) (digitFlags d) (d.val.setWidth 32)

lemma ssegSetBcd_blank (k : ℕ) (p : Panel) :
    (p.ssegSetBcd (t.ssegIdx + BitVec.ofNat 32 k) 0 0).ssegWrVal =
      p.ssegWrVal ++ [showAt t k blank] := rfl

lemma ssegSetBcd_digit (k signIdx : ℕ) (d : BitVec 8) (p : Panel) :
    (p.ssegSetBcd (t.ssegIdx + BitVec.ofNat 32 k)
        (if k = signIdx then ssegValEn ||| ssegDp else ssegValEn) (d.setWidth 32)).ssegWrVal =
      p.ssegWrVal ++ [showAt t k ⟨true, false, decide (k = signIdx), d.setWidth 4⟩] := by
  have hval : d.setWidth 32 &&& 0xf = (d.setWidth 4).setWidth 32 &&& 0xf := by
    revert d
    decide
  have hflags : (if k = signIdx then ssegValEn ||| ssegDp else ssegValEn) =
      digitFlags ⟨true, false, decide (k = signIdx), d.setWidth 4⟩ := by
    by_cases hk : k = signIdx <;> simp [digitFlags, hk]
  simp only [ssegSetBcd, showAt, command, hval, hflags]

/-- The first loop blanks the leading zeros, one position each. -/
lemma readoutChop_spec (n : ℕ) (ds : List (BitVec 8)) (i : ℕ) (p : Panel) :
    (readoutChop t n ds i p).1 = ds.drop (leading n ds) ∧
      (readoutChop t n ds i p).2.1 = i + leading n ds ∧
      (readoutChop t n ds i p).2.2.ssegWrVal =
        p.ssegWrVal ++ (List.range' i (leading n ds)).map fun k => showAt t k blank := by
  induction n generalizing ds i p with
  | zero => simp [readoutChop, leading]
  | succ n ih =>
    cases ds with
    | nil => simp [readoutChop, leading]
    | cons d ds =>
      by_cases hd : d = 0
      · obtain ⟨hrest, hnext, hwords⟩ :=
          ih ds (i + 1) (p.ssegSetBcd (t.ssegIdx + BitVec.ofNat 32 i) 0 0)
        simp only [readoutChop, leading, if_pos hd]
        refine ⟨by rw [hrest, List.drop_succ_cons], by rw [hnext]; omega, ?_⟩
        rw [hwords, ssegSetBcd_blank, List.append_assoc, List.range'_succ]
        rfl
      · simp only [readoutChop, leading, if_neg hd]
        simp

/-- The second loop shows what is left of the digits, as far as there are positions. -/
lemma readoutPrint_spec (signIdx : ℕ) (ds : List (BitVec 8)) (i : ℕ) (p : Panel) :
    (readoutPrint t signIdx ds i p).ssegWrVal =
      p.ssegWrVal ++ ((ds.take (readoutDigits - i)).zipIdx i).map fun d =>
        showAt t d.2 ⟨true, false, decide (d.2 = signIdx), d.1.setWidth 4⟩ := by
  induction ds generalizing i p with
  | nil => simp [readoutPrint]
  | cons d ds ih =>
    by_cases hi : i < readoutDigits
    · obtain ⟨left, hleft⟩ : ∃ left, readoutDigits - i = left + 1 := ⟨readoutDigits - i - 1, by omega⟩
      rw [readoutPrint, if_pos hi, ih, ssegSetBcd_digit, hleft, List.take_succ_cons, List.zipIdx_cons,
        show readoutDigits - (i + 1) = left by omega, List.append_assoc]
      rfl
    · rw [readoutPrint, if_neg hi, Nat.sub_eq_zero_of_le (by omega)]
      simp

end

/-! ### A row -/

/-- What the place `j` after the first shows of the digits of `x`. -/
def cell (x j : ℕ) : Digit :=
  if j < 2 ∧ x < 10 ^ (3 - j) then blank
  else ⟨true, false, decide (j = 2), BitVec.ofNat 4 (digit x (3 - j))⟩

section
variable {x : ℕ}

lemma byte_eq_zero_iff (g : ℕ) : BitVec.ofNat 8 (digit x g) = 0 ↔ digit x g = 0 := by
  have hlt := digit_lt x g
  rw [← BitVec.toNat_inj, BitVec.toNat_ofNat, Nat.mod_eq_of_lt (by omega)]
  rfl

/-- The first loop stops at the first digit that counts, or at the point. -/
lemma leading_digits (hx : x < 10000) :
    leading 2 (BcdConvert.digits x) = if x < 100 then 2 else if x < 1000 then 1 else 0 := by
  have h3 : digit x 3 = 0 ↔ x < 1000 := by
    unfold digit
    omega
  have h2 : x < 1000 → (digit x 2 = 0 ↔ x < 100) := by
    intro h
    unfold digit
    omega
  simp only [BcdConvert.digits, List.map_cons, leading, byte_eq_zero_iff, h3]
  by_cases ha : x < 1000
  · by_cases hb : x < 100 <;> simp [ha, hb, h2 ha]
  · rw [if_neg ha, if_neg (by omega), if_neg ha]

/-- **Both loops together** show, from the position `i` on, the places of the digits, as far as
there are positions. -/
lemma ssegWrVal_row (t : ReadoutTask) (hx : x < 10000) {i : ℕ} (hi : i = 1 ∨ i = 2) (p : Panel) :
    (readoutPrint t (i + 2) (readoutChop t 2 (BcdConvert.digits x) i p).1
        (readoutChop t 2 (BcdConvert.digits x) i p).2.1
        (readoutChop t 2 (BcdConvert.digits x) i p).2.2).ssegWrVal =
      p.ssegWrVal ++ (List.range (5 - i)).map fun j => showAt t (i + j) (cell x j) := by
  obtain ⟨hrest, hnext, hwords⟩ := readoutChop_spec t 2 (BcdConvert.digits x) i p
  have hval : ∀ g, (BitVec.ofNat 8 (digit x g)).setWidth 4 = BitVec.ofNat 4 (digit x g) := by
    intro g
    have hlt := digit_lt x g
    rw [← BitVec.toNat_inj, BitVec.toNat_setWidth, BitVec.toNat_ofNat, BitVec.toNat_ofNat,
      Nat.mod_eq_of_lt (show digit x g < 2 ^ 8 by omega)]
  rw [readoutPrint_spec, hwords, hrest, hnext, leading_digits hx, List.append_assoc]
  congr 1
  rcases Nat.lt_or_ge x 100 with h2 | h2
  · have h3 : x < 1000 := by omega
    rcases hi with rfl | rfl <;>
      simp [h2, h3, BcdConvert.digits, List.range_succ, List.range'_succ, cell, hval, readoutDigits]
  · have h2' : ¬ x < 100 := by omega
    rcases Nat.lt_or_ge x 1000 with h3 | h3
    · rcases hi with rfl | rfl <;>
        simp [h2', h3, BcdConvert.digits, List.range_succ, cell, hval, readoutDigits]
    · have h3' : ¬ x < 1000 := by omega
      rcases hi with rfl | rfl <;>
        simp [h2', h3', BcdConvert.digits, List.range_succ, cell, hval, readoutDigits]

end

section
variable {v : ℚ}

lemma rowDigit_of_nonneg (hv : ¬ v < 0) {j : ℕ} (hj : j < 4) :
    rowDigit v (1 + j) = cell ⌊10 * |v|⌋₊ j := by
  have hsub : 4 - (1 + j) = 3 - j := by omega
  rw [abs_of_nonneg (not_lt.mp hv), rowDigit, if_neg (fun h => hv h.1), number, if_neg hv, point,
    if_neg hv, cell, hsub]
  simp only [show 1 + j < 3 ↔ j < 2 by omega, show 1 + j = 3 ↔ j = 2 by omega]

/-- With it they start one further on, and the last one is left out. -/
lemma rowDigit_of_neg (hv : v < 0) {j : ℕ} (hj : j < 3) :
    rowDigit v (2 + j) = cell ⌊10 * |v|⌋₊ j := by
  have hnum : number v = ⌊10 * |v|⌋₊ / 10 := by
    calc number v = ⌊|v|⌋₊ := if_pos hv
      _ = ⌊10 * |v| / (10 : ℕ)⌋₊ := by
        congr 1
        push_cast
        ring
      _ = ⌊10 * |v|⌋₊ / 10 := Nat.floor_div_natCast _ _
  have hdigit : ∀ x, digit (x / 10) (4 - (2 + j)) = digit x (3 - j) := by
    intro x
    calc x / 10 / 10 ^ (4 - (2 + j)) % 10 = x / 10 ^ (4 - (2 + j) + 1) % 10 := by
          rw [Nat.div_div_eq_div_mul, ← pow_succ']
      _ = digit x (3 - j) := by rw [digit, show 4 - (2 + j) + 1 = 3 - j by omega]
  have hlead : ∀ x, x / 10 < 10 ^ (4 - (2 + j)) ↔ x < 10 ^ (3 - j) := by
    intro x
    rw [Nat.div_lt_iff_lt_mul (by decide), ← pow_succ, show 4 - (2 + j) + 1 = 3 - j by omega]
  rw [rowDigit, if_neg (by omega), hnum, hdigit, point, if_pos hv, cell]
  simp only [hlead, show 2 + j < 4 ↔ j < 2 by omega, show 2 + j = 4 ↔ j = 2 by omega]

lemma dec_eq (v : ℚ) :
    BitVec.ofInt 32 (trunc (if decide (v < 0) then -(v * 10) else v * 10)) =
      BitVec.ofNat 32 ⌊10 * |v|⌋₊ := by
  have habs : (if decide (v < 0) then -(v * 10) else v * 10) = 10 * |v| := by
    by_cases hv : v < 0
    · simp only [hv, decide_true, if_true, abs_of_neg hv]
      ring
    · simp only [hv, decide_false, Bool.false_eq_true, if_false, abs_of_nonneg (not_lt.mp hv)]
      ring
  rw [habs, trunc_of_nonneg (by positivity), BitVec.ofInt_natCast]

variable {bcd1 : BitVec 32 → BitVec 32}

/-- **The commands of a call**: one for each place, in order. -/
lemma ssegWrVal_readoutShow (hbcd : ConvertsDecimal bcd1) (t : ReadoutTask) (hv : |v| < 1000)
    (p : Panel) :
    (readoutShow bcd1 t v p).ssegWrVal =
      p.ssegWrVal ++ places.map fun k => showAt t k (rowDigit v k) := by
  have hx : ⌊10 * |v|⌋₊ < 10000 := by
    rw [Nat.floor_lt (by positivity)]
    push_cast
    linarith
  simp only [readoutShow, dec_eq, hbcd _ hx]
  by_cases hneg : v < 0
  · have hminus : (p.ssegSetBcd (t.ssegIdx + 1) (ssegValEn ||| ssegSign) 0).ssegWrVal =
        p.ssegWrVal ++ [showAt t 1 (rowDigit v 1)] := by
      rw [rowDigit, if_pos ⟨hneg, rfl⟩]
      rfl
    simp only [hneg, decide_true, if_true]
    refine (ssegWrVal_row t hx (Or.inr rfl) _).trans ?_
    rw [hminus, List.append_assoc, List.singleton_append]
    have hcells : ∀ j ∈ List.range 3, showAt t (2 + j) (cell ⌊10 * |v|⌋₊ j) =
        showAt t (2 + j) (rowDigit v (2 + j)) := fun j hj => by
      rw [rowDigit_of_neg hneg (List.mem_range.mp hj)]
    rw [List.map_congr_left hcells]
    rfl
  · simp only [hneg, decide_false, Bool.false_eq_true, if_false]
    refine (ssegWrVal_row t hx (Or.inl rfl) _).trans ?_
    have hcells : ∀ j ∈ List.range 4, showAt t (1 + j) (cell ⌊10 * |v|⌋₊ j) =
        showAt t (1 + j) (rowDigit v (1 + j)) := fun j hj => by
      rw [rowDigit_of_nonneg hneg (List.mem_range.mp hj)]
    rw [List.map_congr_left hcells]
    rfl

/-! ### What the array makes of it -/

lemma addressed_showAt (t : ReadoutTask) (k : ℕ) (d : Digit) :
    addressed (showAt t k d) = some (position t k) := by
  obtain ⟨hwr, hsel, -⟩ :=
    port_command (t.ssegIdx + BitVec.ofNat 32 k) (d.val.setWidth 32) d 0 0
  rw [addressed, showAt, if_pos hwr, hsel]
  rfl

lemma storeWord_showAt (m : Shown) (t : ReadoutTask) (k : ℕ) (d : Digit) :
    storeWord m ((showAt t k d).setWidth 13) = Function.update m (position t k) (some d) := by
  obtain ⟨hwr, hsel, hdigit⟩ :=
    port_command (t.ssegIdx + BitVec.ofNat 32 k) (d.val.setWidth 32) d 0 0
  rw [storeWord, store, showAt, if_pos hwr, hsel, hdigit,
    BitVec.setWidth_setWidth_of_le _ (by decide), BitVec.setWidth_eq]
  rfl

lemma position_inj (t : ReadoutTask) {j k : ℕ} (hj : j < 5) (hk : k < 5)
    (h : position t j = position t k) : j = k := by
  simp only [position, BitVec.toNat_add, BitVec.toNat_ofNat] at h
  omega

lemma lt_of_mem_places {k : ℕ} (hk : k ∈ places) : 0 < k ∧ k < 5 := by
  revert k
  decide

/-- What the commands of a row leave in the map. -/
lemma foldl_row (hold gap : ℕ → ℕ) (t : ReadoutTask) (v : ℚ) (m : Shown) :
    (wave hold gap (places.map fun k => showAt t k (rowDigit v k))).foldl storeWord m =
      stores m (places.map fun k => (position t k, some (rowDigit v k))) := by
  rw [foldl_wave, List.foldl_map, stores, List.foldl_map]
  exact congrArg (fun f => places.foldl f m) (funext₂ fun m k => storeWord_showAt m t k _)

lemma shows_row (t : ReadoutTask) (v : ℚ) :
    Spells t v (places.map fun k => showAt t k (rowDigit v k)) := by
  have haddr : (places.map fun k => showAt t k (rowDigit v k)).map addressed =
      places.map fun k => some (position t k) := by
    rw [List.map_map]
    exact List.map_congr_left fun k _ => addressed_showAt t k _
  have hinj : ∀ j ∈ places, ∀ k ∈ places, position t j = position t k → j = k := fun j hj k hk =>
    position_inj t (lt_of_mem_places hj).2 (lt_of_mem_places hk).2
  have hrow : ∀ hold gap m, ∀ k ∈ places,
      (wave hold gap (places.map fun k => showAt t k (rowDigit v k))).foldl storeWord m
        (position t k) = some (rowDigit v k) := by
    intro hold gap m k hk
    rw [foldl_row]
    exact stores_map hk fun j hj => hinj j hj k hk
  refine ⟨fun k hk => ?_, fun h => ?_, hrow, fun hold gap m a ha => ?_, ?_⟩
  · rw [haddr]
    refine List.count_eq_one_of_mem (List.Nodup.map_on ?_ (by decide)) (List.mem_map_of_mem hk)
    exact fun i hi j hj h => hinj i hi j hj (Option.some.inj h)
  · rw [haddr] at h
    obtain ⟨k, hk, he⟩ := List.mem_map.mp h
    have hzero := position_inj t (lt_of_mem_places hk).2 (by decide) (Option.some.inj he)
    have hpos := (lt_of_mem_places hk).1
    omega
  · rw [foldl_row]
    exact stores_map_of_ne fun k hk => (ha k hk).symm
  · intro A hold gap brightness ledPeriod n hn k hk hlt
    refine ((encodes_none A).exec _ n) _ hlt _ ?_
    rw [exec_store, List.take_of_length_le hn]
    exact hrow hold gap _ k hk

variable {bcd1 : BitVec 32 → BitVec 32}

/-- **A readout shows exactly the value**: with a converter that returns decimal digits, a call
writes each place of the row once and nothing else, and afterwards the row spells the value. -/
theorem readout_shows_value (hbcd : ConvertsDecimal bcd1) (t : ReadoutTask) (s : Display.State)
    (hv : |t.value s.displayParams| < 1000) :
    Spells t (t.value s.displayParams) (written bcd1 t s) := by
  have hpanel : (readoutUpdate bcd1 t s).panel =
      readoutShow bcd1 t (t.value s.displayParams) s.panel := rfl
  rw [written, hpanel, ssegWrVal_readoutShow hbcd t hv, List.drop_left]
  exact shows_row t _

end

def decimal (x : BitVec 32) : BitVec 32 :=
  (BitVec.ofNat 4 (digit x.toNat 3) ++ BitVec.ofNat 4 (digit x.toNat 2) ++
    BitVec.ofNat 4 (digit x.toNat 1) ++ BitVec.ofNat 4 (digit x.toNat 0)).setWidth 32

lemma convertsDecimal_decimal : ConvertsDecimal decimal := by
  intro x hx
  have hbyte : ∀ g, (BitVec.ofNat 4 (digit x g)).setWidth 8 = BitVec.ofNat 8 (digit x g) := by
    intro g
    have hlt := digit_lt x g
    rw [← BitVec.toNat_inj, BitVec.toNat_setWidth, BitVec.toNat_ofNat, BitVec.toNat_ofNat,
      Nat.mod_eq_of_lt (show digit x g < 2 ^ 4 by omega)]
  have htoNat : (BitVec.ofNat 32 x).toNat = x := by
    rw [BitVec.toNat_ofNat, Nat.mod_eq_of_lt (by omega)]
  refine (BcdConvert.nibbles _ _ _ _ rfl).trans ?_
  simp only [htoNat, hbyte]
  rfl

/-- An air fuel ratio of 14.7, and an intake at 40 below. -/
def cold : Display.State :=
  { zeroed ⟨0, 0, 0, fun _ => 0, [], []⟩ with displayParams := ⟨0, 147 / 10, 0, 0, -40, 0⟩ }

theorem readout_shows_cold :
    Spells afrReadoutTask (147 / 10) (written decimal afrReadoutTask cold) ∧
      Spells intakeReadoutTask (-40) (written decimal intakeReadoutTask cold) ∧
      places.map (rowDigit (147 / 10)) =
        [blank, ⟨true, false, false, 1⟩, ⟨true, false, true, 4⟩, ⟨true, false, false, 7⟩] ∧
      places.map (rowDigit (-40)) =
        [minus, blank, ⟨true, false, false, 4⟩, ⟨true, false, true, 0⟩] := by
  refine ⟨?_, ?_, ?_, ?_⟩
  · exact readout_shows_value convertsDecimal_decimal afrReadoutTask cold
      (show |(147 / 10 : ℚ)| < 1000 by norm_num [abs_lt])
  · exact readout_shows_value convertsDecimal_decimal intakeReadoutTask cold
      (show |(-40 : ℚ)| < 1000 by norm_num)
  · norm_num [places, rowDigit, number, point, digit]
    exact ⟨rfl, rfl, rfl⟩
  · norm_num [places, rowDigit, number, point, digit]
    exact ⟨rfl, rfl⟩

end Blastit.Fw.Readout
