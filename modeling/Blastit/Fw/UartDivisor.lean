import Blastit.Fw.Uart

/-!
The divisor `uart_open` programs, for every `baud`.

The product with `os_tick` wraps at 32 bits and the quotient is cut to 16, so only a middle
range of rates keeps the division exact; no rate is refused.
-/

namespace Blastit.Fw.Uart

variable {s : State} {dbit : UartDbit} {sbit : UartSbit} {pbit : UartParity} {baud : BitVec 32}
  {d : ℕ}

/-- `d` is the integer quotient of the clock by sixteen ticks a bit, and fits `dvsr`. -/
structure Divides (baud : BitVec 32) (d : ℕ) : Prop where
  pos : 1 ≤ d
  fits : d ≤ 65535
  low : 16 * baud.toNat * d ≤ clockSpeedHz.toNat
  high : clockSpeedHz.toNat < 16 * baud.toNat * (d + 1)

/-- The two proper outcomes of a call: refused with an error and nothing changed, or
`uart1_init` called with a divisor for `baud`. -/
inductive Proper (s : State) (baud : BitVec 32) : Except Fault (ℤ × State) → Prop
  | refused {rc : ℤ} (hrc : rc < 0) : Proper s baud (.ok (rc, s))
  | called {s' : State} {a : Uart1Init} (ha : s'.uart1 = some a)
    (hdvsr : Divides baud a.dvsr.toNat) : Proper s baud (.ok (uartReady, s'))

/-! ### The arithmetic -/

def dvsrOf (baud : BitVec 32) : BitVec 16 := (clockSpeedHz / (16 * baud)).setWidth 16

lemma clockSpeedHz_toNat : clockSpeedHz.toNat = 50000000 := rfl

lemma osTick_baud_toNat (baud : BitVec 32) :
    (16 * baud).toNat = 16 * (baud.toNat % 2 ^ 28) := by
  rw [BitVec.toNat_mul, show (16 : BitVec 32).toNat = 16 from rfl]
  omega

/-- The product is zero also where it wraps. -/
lemma osTick_baud_eq_zero : 16 * baud = 0 ↔ baud.toNat % 2 ^ 28 = 0 := by
  rw [← BitVec.toNat_inj, osTick_baud_toNat]
  simp

lemma Divides.baud_bounds (h : Divides baud d) : 48 ≤ baud.toNat ∧ baud.toNat ≤ 3125000 := by
  have hlow := h.low
  have hhigh := h.high
  rw [clockSpeedHz_toNat] at hlow hhigh
  have hone : 16 * baud.toNat * 1 ≤ 16 * baud.toNat * d := Nat.mul_le_mul_left _ h.pos
  have htop : 16 * baud.toNat * (d + 1) ≤ 16 * baud.toNat * 65536 :=
    Nat.mul_le_mul_left _ (Nat.succ_le_succ h.fits)
  omega

lemma dvsrOf_toNat (hlow : 48 ≤ baud.toNat) (hhigh : baud.toNat ≤ 3125000) :
    (dvsrOf baud).toNat = 50000000 / (16 * baud.toNat) := by
  have hwrap : baud.toNat % 2 ^ 28 = baud.toNat := Nat.mod_eq_of_lt (by omega)
  have hcut : 50000000 / (16 * baud.toNat) < 2 ^ 16 := by
    rw [Nat.div_lt_iff_lt_mul (by omega)]
    omega
  rw [dvsrOf, BitVec.toNat_setWidth, BitVec.toNat_udiv, osTick_baud_toNat, hwrap,
    clockSpeedHz_toNat, Nat.mod_eq_of_lt hcut]

lemma divides_dvsrOf (hlow : 48 ≤ baud.toNat) (hhigh : baud.toNat ≤ 3125000) :
    Divides baud (dvsrOf baud).toNat := by
  have hpos : 0 < 16 * baud.toNat := by omega
  have hfits := (dvsrOf baud).isLt
  rw [dvsrOf_toNat hlow hhigh] at hfits ⊢
  refine ⟨?_, by omega, ?_, ?_⟩
  · rw [Nat.one_le_div_iff hpos]
    omega
  · exact Nat.mul_div_le _ _
  · exact Nat.lt_mul_div_succ _ hpos

theorem divides_dvsrOf_iff :
    Divides baud (dvsrOf baud).toNat ↔ 48 ≤ baud.toNat ∧ baud.toNat ≤ 3125000 :=
  ⟨Divides.baud_bounds, fun h => divides_dvsrOf h.1 h.2⟩

/-! ### The paths of a call -/

lemma uartOpen_other : uartOpen s dbit .other pbit baud = .ok (uartErrorInvalidArg, s) := rfl

lemma exists_sbTick (hsbit : sbit ≠ .other) : ∃ sbTick, sbit.sbTick 16 = some sbTick := by
  cases sbit with
  | other => exact absurd rfl hsbit
  | half | one | two => exact ⟨_, rfl⟩

/-- The division comes before the check of `dbit`. -/
lemma uartOpen_zero (hsbit : sbit ≠ .other) (h0 : 16 * baud = 0) :
    uartOpen s dbit sbit pbit baud = .error .divideByZero := by
  have hmul : (16 : BitVec 8).setWidth 32 * baud = 0 := h0
  obtain ⟨sbTick, hsb⟩ := exists_sbTick hsbit
  simp only [uartOpen, hsb, if_pos hmul]

lemma uartOpen_dbit (hsbit : sbit ≠ .other) (h0 : 16 * baud ≠ 0) :
    uartOpen s 0 sbit pbit baud = .ok (uartErrorInvalidArg, s) := by
  have hmul : (16 : BitVec 8).setWidth 32 * baud ≠ 0 := h0
  obtain ⟨sbTick, hsb⟩ := exists_sbTick hsbit
  simp only [uartOpen, hsb, if_neg hmul, if_pos]

lemma uartOpen_calls (s : State) (pbit : UartParity) (hsbit : sbit ≠ .other)
    (h0 : 16 * baud ≠ 0) (hdbit : dbit ≠ 0) :
    ∃ s' a, uartOpen s dbit sbit pbit baud = .ok (uartReady, s') ∧ s'.uart1 = some a ∧
      a.dvsr = dvsrOf baud := by
  have hmul : (16 : BitVec 8).setWidth 32 * baud ≠ 0 := h0
  obtain ⟨sbTick, hsb⟩ := exists_sbTick hsbit
  refine ⟨{ s with
    rxBuf := []
    eol := false
    uart1 := some ⟨dbit.setWidth 8, pbit.setWidth 8, sbTick, 16, dvsrOf baud⟩ }, _, ?_, rfl, rfl⟩
  simp only [uartOpen, hsb, if_neg hmul, if_neg hdbit]
  rfl

lemma proper_called_iff {s' : State} {a : Uart1Init} (ha : s'.uart1 = some a) :
    Proper s baud (.ok (uartReady, s')) ↔ Divides baud a.dvsr.toNat := by
  constructor
  · intro h
    cases h with
    | refused hrc => exact absurd hrc (by decide)
    | called ha' hdvsr =>
      obtain rfl := Option.some.inj (ha'.symm.trans ha)
      exact hdvsr
  · exact Proper.called ha

/-- **`uart_open` is proper exactly for the rates from 48 to 3125000**: for every other one it
programs a wrong divisor or divides by zero, if it gets as far as the division. -/
theorem uartOpen_proper_iff (s : State) (dbit : UartDbit) (sbit : UartSbit) (pbit : UartParity)
    (baud : BitVec 32) :
    Proper s baud (uartOpen s dbit sbit pbit baud) ↔
      sbit = .other ∨ baud.toNat % 2 ^ 28 ≠ 0 ∧
        (dbit = 0 ∨ 48 ≤ baud.toNat ∧ baud.toNat ≤ 3125000) := by
  have hrefused : Proper s baud (.ok (uartErrorInvalidArg, s)) := .refused (by decide)
  by_cases hsbit : sbit = .other
  · subst hsbit
    rw [uartOpen_other]
    exact iff_of_true hrefused (Or.inl rfl)
  rw [or_iff_right hsbit, ne_eq, ← osTick_baud_eq_zero]
  by_cases h0 : 16 * baud = 0
  · rw [uartOpen_zero hsbit h0]
    exact iff_of_false nofun fun h => h.1 h0
  rw [and_iff_right h0]
  by_cases hdbit : dbit = 0
  · subst hdbit
    rw [uartOpen_dbit hsbit h0]
    exact iff_of_true hrefused (Or.inl rfl)
  obtain ⟨s', a, hopen, ha, hdvsr⟩ := uartOpen_calls s pbit hsbit h0 hdbit
  rw [hopen, proper_called_iff ha, hdvsr, or_iff_right hdbit, divides_dvsrOf_iff]

/-- No rate, one too low and one too high, each with eight data bits and one stop bit. -/
theorem uartOpen_not_proper :
    uartOpen initial uartDbit8 .one uartParityNone 0 = .error .divideByZero ∧
      ∀ baud ∈ [(0 : BitVec 32), 40, 4000000],
        ¬ Proper initial baud (uartOpen initial uartDbit8 .one uartParityNone baud) := by
  refine ⟨rfl, fun baud hbaud => ?_⟩
  simp only [List.mem_cons, List.not_mem_nil, or_false] at hbaud
  rcases hbaud with rfl | rfl | rfl
  · exact nofun
  · intro h
    exact absurd ((proper_called_iff rfl).mp h).baud_bounds (by decide)
  · intro h
    exact absurd ((proper_called_iff rfl).mp h).baud_bounds (by decide)

end Blastit.Fw.Uart
