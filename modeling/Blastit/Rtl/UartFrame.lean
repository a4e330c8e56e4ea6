import Blastit.Lib.Ticks

/-!
The frame `uart_tx.v` sends and `uart_rx.v` samples, and `parity_calculator.v`.

A frame is a row of slots: the start bit, the data bits, a parity bit when there is one,
and the stop bit. Sender and receiver go through the same slots but dwell differently:
the receiver spends only half a bit in the start slot, so that it leaves every later slot,
and samples the line, in the middle of what the sender sends there.
-/

namespace Blastit.Rtl.UartFrame

open Blastit.Lib.Ticks

/-! ### Settings and parity -/

structure Settings where
  dbit : BitVec 4
  pbit : BitVec 2
  sbTick : BitVec 8
  osTick : BitVec 8

/-- The states of `uart_tx` and of `uart_rx`. -/
inductive Phase
  | idle | start | data | parity | stop
  deriving DecidableEq

/-- `^data[n-1:0]`. -/
def xorReduce (data : BitVec 8) (n : ℕ) : Bool :=
  (List.range n).foldl (fun x i => x ^^ data.getLsbD i) false

/-- `parity_calculator`: none, even or odd parity of the low bits. -/
def parityCalculator (data : BitVec 8) (dbit : BitVec 4) (pbit : BitVec 2) : Bool :=
  let xs := if dbit == 7 then xorReduce data 7 else xorReduce data 8
  if pbit == 0 then false else if pbit == 1 then xs else !xs

def ones (data : BitVec 8) (n : ℕ) : ℕ := (List.range n).countP fun i => data.getLsbD i

/-- The parity bit of the low `dbit` bits: with it the number of ones is even, or odd. -/
def Settings.parityOf (c : Settings) (data : BitVec 8) : Bool :=
  if c.pbit = 1 then ones data c.dbit.toNat % 2 == 1 else ones data c.dbit.toNat % 2 == 0

@[simp] lemma xorReduce_zero (data : BitVec 8) : xorReduce data 0 = false := rfl

lemma xorReduce_succ (data : BitVec 8) (n : ℕ) :
    xorReduce data (n + 1) = (xorReduce data n ^^ data.getLsbD n) := by
  simp [xorReduce, List.range_succ]

@[simp] lemma ones_zero (data : BitVec 8) : ones data 0 = 0 := rfl

lemma ones_succ (data : BitVec 8) (n : ℕ) :
    ones data (n + 1) = ones data n + if data.getLsbD n then 1 else 0 := by
  simp [ones, List.range_succ, List.countP_cons]

lemma xorReduce_eq (data : BitVec 8) (n : ℕ) : xorReduce data n = (ones data n % 2 == 1) := by
  induction n with
  | zero => rfl
  | succ n ih =>
    rw [xorReduce_succ, ones_succ, ih]
    rcases Nat.mod_two_eq_zero_or_one (ones data n) with h | h <;>
      cases data.getLsbD n <;> simp [Nat.add_mod, h]

/-- The settings the hardware is made for. -/
structure Settings.Valid (c : Settings) : Prop where
  dbit : c.dbit = 7 ∨ c.dbit = 8
  os : 0 < c.osTick.toNat
  sb : 0 < c.sbTick.toNat

namespace Settings

variable (c : Settings)

def bits : ℕ := c.dbit.toNat + if c.pbit = 0 then 0 else 1

/-- The ticks from the start of a bit to its middle. -/
def half : ℕ := (c.osTick.toNat - 1) / 2 + 1

/-- The ticks the sender spends in slot `k`. -/
def txDur (k : ℕ) : ℕ := if k = c.bits + 1 then c.sbTick.toNat else c.osTick.toNat

/-- The ticks the receiver spends in slot `k`. -/
def rxDur (k : ℕ) : ℕ :=
  if k = 0 then c.half else if k = c.bits + 1 then c.sbTick.toNat else c.osTick.toNat

def slotPhase (k : ℕ) : Phase :=
  if k = 0 then .start
  else if k ≤ c.dbit.toNat then .data
  else if k ≤ c.bits then .parity
  else .stop

/-- The level on the line in slot `k` of the frame of `byte`. -/
def wire (byte : BitVec 8) (k : ℕ) : Bool :=
  if k = 0 then false
  else if k ≤ c.dbit.toNat then byte.getLsbD (k - 1)
  else if k ≤ c.bits then parityCalculator byte c.dbit c.pbit
  else true

/-- The levels of a frame with the parity bit `parity`, and high from the stop bit on. -/
def level (byte : BitVec 8) (parity : Bool) (k : ℕ) : Bool :=
  if k = 0 then false
  else if k ≤ c.dbit.toNat then byte.getLsbD (k - 1)
  else if k ≤ c.bits then parity
  else true

def lowBits (byte : BitVec 8) : BitVec 8 := (byte.setWidth c.dbit.toNat).setWidth 8

variable {c}

lemma Valid.dbit_toNat (h : c.Valid) : c.dbit.toNat = 7 ∨ c.dbit.toNat = 8 := by
  rcases h.dbit with hd | hd <;> rw [hd] <;> decide

/-- `parity_calculator` computes the parity bit. -/
lemma parityCalculator_eq (hd : c.dbit = 7 ∨ c.dbit = 8) (hp : c.pbit = 1 ∨ c.pbit = 2)
    (data : BitVec 8) : parityCalculator data c.dbit c.pbit = c.parityOf data := by
  have hneg : (!(ones data c.dbit.toNat % 2 == 1)) = (ones data c.dbit.toNat % 2 == 0) := by
    rcases Nat.mod_two_eq_zero_or_one (ones data c.dbit.toNat) with h | h <;> simp [h]
  rcases hd with hd | hd <;> rcases hp with hp | hp <;>
    simp [parityCalculator, parityOf, hd, hp, xorReduce_eq] at hneg ⊢
  · exact hneg
  · exact hneg

lemma bits_of_pbit_zero (h : c.pbit = 0) : c.bits = c.dbit.toNat := by
  rw [bits, if_pos h, Nat.add_zero]

lemma bits_of_pbit_ne_zero (h : c.pbit ≠ 0) : c.bits = c.dbit.toNat + 1 := by
  rw [bits, if_neg h]

lemma dbit_le_bits : c.dbit.toNat ≤ c.bits := by unfold bits; omega

lemma bits_le : c.bits ≤ c.dbit.toNat + 1 := by unfold bits; split <;> omega

lemma half_pos : 0 < c.half := Nat.succ_pos _

lemma level_of_lt {byte : BitVec 8} {parity : Bool} {k : ℕ} (h : c.bits < k) :
    c.level byte parity k = true := by
  have := c.dbit_le_bits
  rw [level, if_neg (by omega), if_neg (by omega), if_neg (by omega)]

lemma wire_eq (hd : c.dbit = 7 ∨ c.dbit = 8) (hp : c.pbit = 0 ∨ c.pbit = 1 ∨ c.pbit = 2)
    (byte : BitVec 8) (k : ℕ) : c.wire byte k = c.level byte (c.parityOf byte) k := by
  rcases hp with hp | hp
  · have hbits := bits_of_pbit_zero hp
    unfold wire level
    split_ifs <;> first | rfl | omega
  · rw [wire, level, parityCalculator_eq hd hp]

lemma slotPhase_data {k : ℕ} (h1 : 1 ≤ k) (h2 : k ≤ c.dbit.toNat) : c.slotPhase k = .data := by
  rw [slotPhase, if_neg (by omega), if_pos h2]

lemma slotPhase_parity {k : ℕ} (h1 : c.dbit.toNat < k) (h2 : k ≤ c.bits) :
    c.slotPhase k = .parity := by
  rw [slotPhase, if_neg (by omega), if_neg (by omega), if_pos h2]

lemma slotPhase_stop : c.slotPhase (c.bits + 1) = .stop := by
  have := c.dbit_le_bits
  rw [slotPhase, if_neg (by omega), if_neg (by omega), if_neg (by omega)]

lemma after_data :
    (if (c.pbit != 0) = true then Phase.parity else Phase.stop) =
      c.slotPhase (c.dbit.toNat + 1) := by
  by_cases hpb : c.pbit = 0
  · rw [if_neg (by simpa using hpb), ← bits_of_pbit_zero hpb, slotPhase_stop]
  · rw [if_pos (by simpa using hpb), slotPhase_parity (by omega)]
    rw [bits_of_pbit_ne_zero hpb]

/-- The cases a proof about a slot goes through: where it stands, what it sends. -/
lemma slot_cases (c : Settings) (byte : BitVec 8) {k : ℕ} (hk : k < c.bits + 2) :
    (k = 0 ∧ c.slotPhase k = .start ∧ c.wire byte k = false) ∨
    (1 ≤ k ∧ k ≤ c.dbit.toNat ∧ c.slotPhase k = .data ∧ c.wire byte k = byte.getLsbD (k - 1)) ∨
    (k = c.dbit.toNat + 1 ∧ k = c.bits ∧ c.pbit ≠ 0 ∧ c.slotPhase k = .parity ∧
      c.wire byte k = parityCalculator byte c.dbit c.pbit) ∨
    (k = c.bits + 1 ∧ c.slotPhase k = .stop ∧ c.wire byte k = true) := by
  have h1 := c.dbit_le_bits
  have h2 := c.bits_le
  rcases Nat.eq_zero_or_pos k with h0 | h0
  · left; simp [h0, slotPhase, wire]
  right
  rcases Nat.lt_or_ge c.dbit.toNat k with hd | hd
  · right
    rcases Nat.lt_or_ge c.bits k with hb | hb
    · right
      refine ⟨by omega, ?_, ?_⟩
      · rw [show k = c.bits + 1 by omega, slotPhase_stop]
      · rw [wire, if_neg (by omega), if_neg (by omega), if_neg (by omega)]
    · left
      refine ⟨by omega, by omega, fun hp => ?_, ?_, ?_⟩
      · have := bits_of_pbit_zero hp; omega
      · exact slotPhase_parity hd hb
      · rw [wire, if_neg (by omega), if_neg (by omega), if_pos (by omega)]
  · left
    refine ⟨h0, hd, slotPhase_data h0 hd, ?_⟩
    rw [wire, if_neg (by omega), if_pos hd]

/-! ### How long a frame is -/

lemma txDur_of_le {k : ℕ} (h : k ≤ c.bits) : c.txDur k = c.osTick.toNat := by
  rw [txDur, if_neg (by omega)]

lemma txDur_last : c.txDur (c.bits + 1) = c.sbTick.toNat := by rw [txDur, if_pos rfl]

lemma rxDur_zero : c.rxDur 0 = c.half := by rw [rxDur, if_pos rfl]

lemma rxDur_of_le {k : ℕ} (h0 : 0 < k) (h : k ≤ c.bits) : c.rxDur k = c.osTick.toNat := by
  rw [rxDur, if_neg (by omega), if_neg (by omega)]

lemma rxDur_last : c.rxDur (c.bits + 1) = c.sbTick.toNat := by
  rw [rxDur, if_neg (by omega), if_pos rfl]

lemma Valid.txDur_pos (h : c.Valid) (k : ℕ) : 0 < c.txDur k := by
  unfold txDur; have := h.os; have := h.sb; split <;> omega

lemma Valid.rxDur_pos (h : c.Valid) (k : ℕ) : 0 < c.rxDur k := by
  unfold rxDur
  have := h.os; have := h.sb; have := c.half_pos
  split
  · omega
  · split <;> omega

lemma bound_txDur {k : ℕ} (h : k ≤ c.bits + 1) :
    bound c.txDur k = k * c.osTick.toNat := by
  induction k with
  | zero => simp
  | succ k ih => rw [bound_succ, ih (by omega), txDur_of_le (by omega), Nat.succ_mul]

lemma bound_txDur_last :
    bound c.txDur (c.bits + 2) = (c.bits + 1) * c.osTick.toNat + c.sbTick.toNat := by
  rw [bound_succ, bound_txDur (le_refl _), txDur_last]

lemma bound_rxDur {k : ℕ} (h : k ≤ c.bits) :
    bound c.rxDur (k + 1) = c.half + k * c.osTick.toNat := by
  induction k with
  | zero => rw [bound_succ, bound_zero, rxDur_zero]; omega
  | succ k ih =>
    rw [bound_succ, ih (by omega), rxDur_of_le (by omega) h, Nat.succ_mul]
    omega

lemma bound_rxDur_last :
    bound c.rxDur (c.bits + 2) = c.half + c.bits * c.osTick.toNat + c.sbTick.toNat := by
  rw [bound_succ, bound_rxDur (le_refl _), rxDur_last]

/-- **The receiver leaves slot `k` while the sender is in it**, with a tick to spare on
either side, when a bit has two ticks at least and the stop bit is not shorter. -/
lemma rx_between (hos : 2 ≤ c.osTick.toNat) (hsb : c.osTick.toNat ≤ c.sbTick.toNat) {k : ℕ}
    (hk : k < c.bits + 2) :
    bound c.txDur k + 1 ≤ bound c.rxDur (k + 1) ∧
      bound c.rxDur (k + 1) + 1 ≤ bound c.txDur (k + 1) := by
  have hh := c.half_pos
  have hh' : c.half + 1 ≤ c.osTick.toNat := by unfold half; omega
  rcases Nat.lt_or_ge c.bits k with hb | hb
  · have hke : k = c.bits + 1 := by omega
    subst hke
    rw [bound_txDur (le_refl _), bound_rxDur_last, bound_txDur_last, Nat.succ_mul]
    omega
  · rw [bound_txDur (by omega), bound_rxDur hb, bound_txDur (by omega), Nat.succ_mul]
    omega

end Settings

end Blastit.Rtl.UartFrame
