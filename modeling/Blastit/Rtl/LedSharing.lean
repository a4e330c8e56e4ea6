import Blastit.Rtl.LedBars

/-!
Which lights of the two LED bars are ever seen.

Both scanners run on the same period, so their `done_tick`s are two streams that take
turns: a bar is shown from the other's `done_tick` to its own. How much of each scan that
is depends only on the shift between the two.
-/

namespace Blastit.Rtl.LedBars

open Blastit.Lib.Clocked Blastit.Lib.Ticks Blastit.Lib.Turns

/-- The two resets are released at clocks `r₁` and `r₂`; `led_period` is constant, the
brightness full, and nothing is written. -/
structure Steady (inp : ℕ → In) (m : BitVec 24) (r₁ r₂ : ℕ) : Prop where
  reset1 : ∀ t, (inp t).leds1.resetControl.getLsbD 1 = decide (t < r₁)
  reset2 : ∀ t, (inp t).leds2.resetControl.getLsbD 1 = decide (t < r₂)
  period : ∀ t, (inp t).ledPeriod = m
  bright1 : ∀ t, (inp t).leds1.brightness = 0xff
  bright2 : ∀ t, (inp t).leds2.brightness = 0xff
  fixed1 : ∀ t, (inp t).leds1.wrVal.getLsbD 9 = false
  fixed2 : ∀ t, (inp t).leds2.wrVal.getLsbD 9 = false

/-- Light `k` of the first bar is on: the matrix is selected, stands at `k` and is lit. -/
def Shows1 (s : State) (i : In) (k : ℕ) : Prop :=
  ledIdxNext s i = 0 ∧ (LedMatrix.visible s.leds1 i.wires1).addrIReg.toNat = k ∧ lit1 s i = true

def Shows2 (s : State) (i : In) (k : ℕ) : Prop :=
  ledIdxNext s i ≠ 0 ∧ (LedMatrix.visible s.leds2 i.wires2).addrIReg.toNat = k ∧ lit2 s i = true

/-- The scans each matrix completes in the `n` clocks from clock `a` on. -/
def scans1 (s : State) (inp : ℕ → In) (a n : ℕ) : ℕ :=
  ticks (fun t => done1 (run s inp t) (inp t)) a n

def scans2 (s : State) (inp : ℕ → In) (a n : ℕ) : ℕ :=
  ticks (fun t => done2 (run s inp t) (inp t)) a n

/-- In every window in which both matrices complete two scans, every enabled light is on at
least once. -/
def NoStarvation (s : State) (inp : ℕ → In) : Prop :=
  ∀ a n, 2 ≤ scans1 s inp a n → 2 ≤ scans2 s inp a n →
    (∀ k < 30, s.leds1.enReg k = true →
      ∃ t, a ≤ t ∧ t < a + n ∧ Shows1 (run s inp t) (inp t) k) ∧
    (∀ k < 30, s.leds2.enReg k = true →
      ∃ t, a ≤ t ∧ t < a + n ∧ Shows2 (run s inp t) (inp t) k)

def clocks (m : BitVec 24) : ℕ := m.toNat + 1

def scanClocks (m : BitVec 24) : ℕ := 30 * clocks m

/-- The clocks from the end of a scan of the first bar to the next end of one of the
second. -/
def lag (m : BitVec 24) (r₁ r₂ : ℕ) : ℕ := shift (scanClocks m) r₁ r₂

variable {s : State} {inp : ℕ → In} {m : BitVec 24} {r₁ r₂ a n k t : ℕ}

/-! ### The two scanners -/

lemma run_leds1 (s : State) (inp : ℕ → In) (t : ℕ) :
    (run s inp t).leds1 =
      exec LedMatrix.next (LedMatrix.reset s.leds1) (fun t => (inp t).wires1) t :=
  exec_part (fun _ => rfl) t

lemma run_leds2 (s : State) (inp : ℕ → In) (t : ℕ) :
    (run s inp t).leds2 =
      exec LedMatrix.next (LedMatrix.reset s.leds2) (fun t => (inp t).wires2) t :=
  exec_part (fun _ => rfl) t

lemma Steady.released1 (h : Steady inp m r₁ r₂) :
    LedMatrix.Released (fun t => (inp t).wires1) m r₁ := ⟨h.reset1, h.period⟩

lemma Steady.released2 (h : Steady inp m r₁ r₂) :
    LedMatrix.Released (fun t => (inp t).wires2) m r₂ := ⟨h.reset2, h.period⟩

lemma Steady.every1 (h : Steady inp m r₁ r₂) (s : State) :
    Every (scanClocks m) r₁ (fun t => done1 (run s inp t) (inp t)) := by
  have := LedMatrix.released_doneTick (s := s.leds1) h.released1 params_room
  simp only [← run_leds1] at this
  exact this

lemma Steady.every2 (h : Steady inp m r₁ r₂) (s : State) :
    Every (scanClocks m) r₂ (fun t => done2 (run s inp t) (inp t)) := by
  have := LedMatrix.released_doneTick (s := s.leds2) h.released2 params_room
  simp only [← run_leds2] at this
  exact this

lemma Steady.enReg (h : Steady inp m r₁ r₂) (s : State) (t : ℕ) :
    (run s inp t).leds1.enReg = s.leds1.enReg ∧ (run s inp t).leds2.enReg = s.leds2.enReg := by
  induction t with
  | zero => exact ⟨rfl, rfl⟩
  | succ t ih =>
    have hw1 : LedMatrix.write (run s inp t).leds1 (inp t).wires1 = (run s inp t).leds1.enReg :=
      if_neg (by rw [show (inp t).wires1.sel = false from h.fixed1 t]; simp)
    have hw2 : LedMatrix.write (run s inp t).leds2 (inp t).wires2 = (run s inp t).leds2.enReg :=
      if_neg (by rw [show (inp t).wires2.sel = false from h.fixed2 t]; simp)
    rw [← ih.1, ← ih.2, ← hw1, ← hw2]
    exact ⟨LedMatrix.next_enReg _ _, LedMatrix.next_enReg _ _⟩

lemma passes_full (c : Pwm.State 8) : Pwm.passes c 0xff = true :=
  Pwm.passes_allOnes (by decide) c

lemma Steady.lit1_eq (h : Steady inp m r₁ r₂) (s : State) (t : ℕ) :
    lit1 (run s inp t) (inp t) =
      s.leds1.enReg (LedMatrix.visible (run s inp t).leds1 (inp t).wires1).addrIReg.toNat := by
  have hb : (inp t).wires1.brightness = 0xff := h.bright1 t
  rw [lit1, LedMatrix.lit, LedMatrix.current, LedMatrix.visible_enReg, (h.enReg s t).1, hb,
    passes_full, Bool.and_true]

lemma Steady.lit2_eq (h : Steady inp m r₁ r₂) (s : State) (t : ℕ) :
    lit2 (run s inp t) (inp t) =
      s.leds2.enReg (LedMatrix.visible (run s inp t).leds2 (inp t).wires2).addrIReg.toNat := by
  have hb : (inp t).wires2.brightness = 0xff := h.bright2 t
  rw [lit2, LedMatrix.lit, LedMatrix.current, LedMatrix.visible_enReg, (h.enReg s t).2, hb,
    passes_full, Bool.and_true]

lemma clocks_pos : 0 < clocks m := Nat.succ_pos _

lemma two_le_clocks (hm : 1 ≤ m.toNat) : 2 ≤ clocks m := Nat.succ_le_succ hm

lemma positionAt_eq {r x o : ℕ} (hx : r ≡ x [MOD scanClocks m]) (hle : r ≤ x) (ho : 0 < o)
    (hoQ : o ≤ scanClocks m) :
    LedMatrix.positionAt (p := params) m (x + o - r) = (o - 1) / clocks m :=
  scan_position (K := 30) (P := clocks m) clocks_pos hx hle ho hoQ

/-- The clocks at which a matrix stands at `k` and is lit, `o` clocks after a scan of its own
began. -/
lemma position_lit_iff {x o : ℕ} {lit : Bool} {bits : ℕ → Bool} (hx : x = (o - 1) / clocks m)
    (hlit : lit = bits x) (ho : 0 < o) :
    x = k ∧ lit = true ↔ (k * clocks m < o ∧ o ≤ (k + 1) * clocks m) ∧ bits k = true := by
  rw [← position_iff clocks_pos ho, ← hx, hlit]
  constructor
  · rintro ⟨rfl, hbit⟩
    exact ⟨rfl, hbit⟩
  · rintro ⟨rfl, hbit⟩
    exact ⟨rfl, hbit⟩

lemma Steady.shows1_iff (h : Steady inp m r₁ r₂) (s : State) {x o : ℕ}
    (hx : r₁ ≡ x [MOD scanClocks m]) (hle : r₁ ≤ x) (ho : 0 < o) (hoQ : o ≤ scanClocks m) :
    Shows1 (run s inp (x + o)) (inp (x + o)) k ↔
      ledIdxNext (run s inp (x + o)) (inp (x + o)) = 0 ∧
        (k * clocks m < o ∧ o ≤ (k + 1) * clocks m) ∧ s.leds1.enReg k = true := by
  have haddr := (LedMatrix.released_visible (s := s.leds1) h.released1 params_room (x + o)).2
  rw [← run_leds1, positionAt_eq hx hle ho hoQ] at haddr
  exact and_congr_right fun _ => position_lit_iff haddr (h.lit1_eq s (x + o)) ho

lemma Steady.shows2_iff (h : Steady inp m r₁ r₂) (s : State) {x o : ℕ}
    (hx : r₂ ≡ x [MOD scanClocks m]) (hle : r₂ ≤ x) (ho : 0 < o) (hoQ : o ≤ scanClocks m) :
    Shows2 (run s inp (x + o)) (inp (x + o)) k ↔
      ledIdxNext (run s inp (x + o)) (inp (x + o)) ≠ 0 ∧
        (k * clocks m < o ∧ o ≤ (k + 1) * clocks m) ∧ s.leds2.enReg k = true := by
  have haddr := (LedMatrix.released_visible (s := s.leds2) h.released2 params_room (x + o)).2
  rw [← run_leds2, positionAt_eq hx hle ho hoQ] at haddr
  exact and_congr_right fun _ => position_lit_iff haddr (h.lit2_eq s (x + o)) ho

/-! ### The selector -/

def second (s : State) (inp : ℕ → In) (t : ℕ) : Bool :=
  decide (ledIdxNext (run s inp t) (inp t) ≠ 0)

/-- The selector holds one of the two bars. -/
def Selects (s : State) : Prop := s.ledIdxReg = 0 ∨ s.ledIdxReg = 1

lemma Selects.ledIdxNext_eq (h : Selects s) (i : In) :
    ledIdxNext s i = if done2 s i then 0 else if done1 s i then 1 else s.ledIdxReg := by
  unfold ledIdxNext
  rcases h with h | h <;> rw [h] <;> cases done1 s i <;> cases done2 s i <;> rfl

lemma Selects.next (h : Selects s) (i : In) : Selects (next s i) := by
  show ledIdxNext s i = 0 ∨ ledIdxNext s i = 1
  rw [h.ledIdxNext_eq i]
  split
  · exact Or.inl rfl
  · split
    · exact Or.inr rfl
    · exact h

lemma Selects.run (h : Selects s) (inp : ℕ → In) (t : ℕ) : Selects (run s inp t) :=
  exec_inv_all (I := Selects) (show Selects (start s) from h) (fun _ i hs => hs.next i) t

/-- Any other value stays, and selects the second bar. -/
lemma ledIdxNext_stuck (h : ¬ Selects s) (i : In) : ledIdxNext s i = s.ledIdxReg := by
  have h0 : (s.ledIdxReg == 0) = false := beq_false_of_ne fun he => h (Or.inl he)
  have h1 : (s.ledIdxReg == 1) = false := beq_false_of_ne fun he => h (Or.inr he)
  unfold ledIdxNext
  simp only [h0, h1, Bool.and_false, Bool.false_eq_true, if_false]

lemma run_stuck (h : ¬ Selects s) (inp : ℕ → In) (t : ℕ) :
    (run s inp t).ledIdxReg = s.ledIdxReg := by
  induction t with
  | zero => rfl
  | succ t ih =>
    have hs : ¬ Selects (run s inp t) := by unfold Selects; rw [ih]; exact h
    show ledIdxNext (run s inp t) (inp t) = _
    rw [ledIdxNext_stuck hs, ih]

lemma second_stuck (h : ¬ Selects s) (inp : ℕ → In) (t : ℕ) :
    ledIdxNext (run s inp t) (inp t) ≠ 0 := by
  have hs : ¬ Selects (run s inp t) := by unfold Selects; rw [run_stuck h]; exact h
  rw [ledIdxNext_stuck hs, run_stuck h]
  exact fun he => h (Or.inl he)

/-- **The two bars take turns.** -/
lemma Selects.alternates (h : Selects s) (inp : ℕ → In) :
    Alternates (fun t => done1 (LedBars.run s inp t) (inp t))
      (fun t => done2 (LedBars.run s inp t) (inp t)) (second s inp) where
  first t hd := by
    rw [second, (h.run inp t).ledIdxNext_eq, if_pos hd]
    rfl
  second t hd hd2 := by
    rw [second, (h.run inp t).ledIdxNext_eq, if_neg (by rw [hd2]; decide), if_pos hd]
    rfl
  keep t hd hd2 := by
    rw [second, (h.run inp (t + 1)).ledIdxNext_eq, if_neg (by rw [hd2]; decide),
      if_neg (by rw [hd]; decide)]
    rfl

/-! ### Which lights are seen -/

/-- The enabled lights of the two bars lie in the part of the scan that is shown. -/
def Visible (s : State) (m : BitVec 24) (r₁ r₂ : ℕ) : Prop :=
  (∀ k < 30, s.leds1.enReg k = true → lag m r₁ r₂ ≤ (k + 1) * clocks m) ∧
    ∀ k < 30, s.leds2.enReg k = true →
      0 < lag m r₁ r₂ ∧ scanClocks m ≤ lag m r₁ r₂ + (k + 1) * clocks m

lemma scanClocks_pos : 0 < scanClocks m := Nat.mul_pos (by decide) clocks_pos

lemma lag_spec : Shift (scanClocks m) r₁ r₂ (lag m r₁ r₂) := shift_spec scanClocks_pos

lemma lag_lt (m : BitVec 24) (r₁ r₂ : ℕ) : lag m r₁ r₂ < scanClocks m := lag_spec.lt

lemma Steady.window (h : Steady inp m r₁ r₂) (s : State) :
    2 ≤ scans1 s inp (r₁ + r₂ + scanClocks m) (2 * scanClocks m + 1) ∧
      2 ≤ scans2 s inp (r₁ + r₂ + scanClocks m) (2 * scanClocks m + 1) :=
  ⟨(h.every1 s).two_le scanClocks_pos (by omega) (by omega),
    (h.every2 s).two_le scanClocks_pos (by omega) (by omega)⟩

lemma end_le_scan (hk : k < 30) : (k + 1) * clocks m ≤ scanClocks m :=
  Nat.mul_le_mul_right _ hk

lemma lag_le_of_shows1 (h : Steady inp m r₁ r₂) (hs : Selects s)
    (ht : r₁ + r₂ + scanClocks m ≤ t) (hshow : Shows1 (run s inp t) (inp t) k) :
    lag m r₁ r₂ ≤ (k + 1) * clocks m := by
  obtain ⟨x, o, hx, hlt, rfl, hoQ, hsel⟩ := (hs.alternates inp).sel_iff (h.every1 s) (h.every2 s)
    lag_spec (show r₁ + scanClocks m ≤ t by omega) (by omega)
  have hge : lag m r₁ r₂ ≤ o := by
    by_contra hlt'
    have h2 := hsel.mpr (by omega)
    rw [second, decide_eq_true_eq] at h2
    exact h2 hshow.1
  rcases Nat.eq_zero_or_pos o with rfl | ho
  · omega
  · have := ((h.shows1_iff s hx hlt.le ho hoQ.le).mp hshow).2.1.2
    omega

lemma lag_of_shows2 (h : Steady inp m r₁ r₂) (hs : Selects s)
    (ht : r₁ + r₂ + scanClocks m ≤ t) (hshow : Shows2 (run s inp t) (inp t) k) :
    0 < lag m r₁ r₂ ∧ scanClocks m ≤ lag m r₁ r₂ + (k + 1) * clocks m := by
  obtain ⟨x, o, hx, hlt, rfl, hoQ, hsel⟩ := (hs.alternates inp).sel_iff (h.every1 s) (h.every2 s)
    lag_spec (show r₁ + scanClocks m ≤ t by omega) (by omega)
  have hlag := lag_lt m r₁ r₂
  have ho : o < lag m r₁ r₂ := hsel.mp (by rw [second, decide_eq_true_eq]; exact hshow.1)
  refine ⟨by omega, ?_⟩
  -- the clock seen from the second bar's own scan
  have hy : r₂ ≡ x + lag m r₁ r₂ - scanClocks m [MOD scanClocks m] := by
    have h1 : r₂ ≡ x + lag m r₁ r₂ [MOD scanClocks m] := lag_spec.eq.trans (hx.add_right _)
    have h2 := modEq_add_period (Q := scanClocks m) (x + lag m r₁ r₂ - scanClocks m)
    rw [show x + lag m r₁ r₂ - scanClocks m + scanClocks m = x + lag m r₁ r₂ by omega] at h2
    exact h1.trans h2.symm
  have he : x + o = x + lag m r₁ r₂ - scanClocks m + (scanClocks m - lag m r₁ r₂ + o) := by omega
  rw [he] at hshow
  have := ((h.shows2_iff s hy (by omega) (by omega) (by omega)).mp hshow).2.1.2
  omega

lemma exists_shows1 (h : Steady inp m r₁ r₂) (hs : Selects s) (hm : 1 ≤ m.toNat)
    (hw1 : 2 ≤ scans1 s inp a n) (hw2 : 2 ≤ scans2 s inp a n) (hk : k < 30)
    (hen : s.leds1.enReg k = true) (hlag : lag m r₁ r₂ ≤ (k + 1) * clocks m) :
    ∃ t, a ≤ t ∧ t < a + n ∧ Shows1 (run s inp t) (inp t) k := by
  have hend := end_le_scan (m := m) hk
  have hlt := lag_lt m r₁ r₂
  have hP := two_le_clocks hm
  have hmul : (k + 1) * clocks m = k * clocks m + clocks m := Nat.succ_mul _ _
  obtain ⟨x, hx, hle, ha, hb, hsel⟩ := (hs.alternates inp).exists_first (h.every1 s) (h.every2 s)
    lag_spec hw1 hw2 (o := max (lag m r₁ r₂) ((k + 1) * clocks m - 1)) (by omega) (by omega)
  refine ⟨_, ha, hb, (h.shows1_iff s hx hle (by omega) (by omega)).mpr ⟨?_, ?_, hen⟩⟩
  · rw [second, decide_eq_false_iff_not, not_not] at hsel
    exact hsel
  · omega

lemma exists_shows2 (h : Steady inp m r₁ r₂) (hs : Selects s) (hm : 1 ≤ m.toNat)
    (hw1 : 2 ≤ scans1 s inp a n) (hw2 : 2 ≤ scans2 s inp a n) (hk : k < 30)
    (hen : s.leds2.enReg k = true) (hpos : 0 < lag m r₁ r₂)
    (hlag : scanClocks m ≤ lag m r₁ r₂ + (k + 1) * clocks m) :
    ∃ t, a ≤ t ∧ t < a + n ∧ Shows2 (run s inp t) (inp t) k := by
  have hend := end_le_scan (m := m) hk
  have hlt := lag_lt m r₁ r₂
  have hP := two_le_clocks hm
  have hmul : (k + 1) * clocks m = k * clocks m + clocks m := Nat.succ_mul _ _
  obtain ⟨x, hx, hle, ha, hb, hsel⟩ := (hs.alternates inp).exists_second (h.every1 s)
    (h.every2 s) lag_spec hw1 hw2 hpos
    (o := max (scanClocks m - lag m r₁ r₂) ((k + 1) * clocks m - 1)) (by omega) (by omega)
  refine ⟨_, ha, hb, (h.shows2_iff s hx hle (by omega) (by omega)).mpr ⟨?_, ?_, hen⟩⟩
  · rw [second, decide_eq_true_eq] at hsel
    exact hsel
  · omega

/-- A selector that holds neither bar shows the whole second bar and nothing of the first. -/
lemma noStarvation_stuck (h : Steady inp m r₁ r₂) (hs : ¬ Selects s) (hm : 1 ≤ m.toNat) :
    NoStarvation s inp ↔ ∀ k < 30, s.leds1.enReg k = false := by
  constructor
  · intro hno k hk
    by_contra hen
    obtain ⟨hw1, hw2⟩ := h.window s
    obtain ⟨t, -, -, hshow⟩ := (hno _ _ hw1 hw2).1 k hk (by simpa using hen)
    exact second_stuck hs inp t hshow.1
  · intro hdark a n hw1 hw2
    refine ⟨fun k hk hen => ?_, fun k hk hen => ?_⟩
    · rw [hdark k hk] at hen
      cases hen
    · obtain ⟨y, hy, hyn, hlt, hmod⟩ := (h.every2 s).two hw2
      have hend := end_le_scan (m := m) hk
      have hP := two_le_clocks hm
      have hmul : (k + 1) * clocks m = k * clocks m + clocks m := Nat.succ_mul _ _
      refine ⟨y + (k * clocks m + 1), by omega, by omega,
        (h.shows2_iff s hmod hlt.le (by omega) (by omega)).mpr ⟨second_stuck hs inp _, ?_, hen⟩⟩
      omega

/-- **Which contents of the two bars are shown in full**: those whose lights lie in the
part of the scan that the lag between the scanners leaves to their bar. -/
theorem noStarvation_iff (h : Steady inp m r₁ r₂) (hm : 1 ≤ m.toNat) :
    NoStarvation s inp ↔
      (Selects s ∧ Visible s m r₁ r₂) ∨ (¬ Selects s ∧ ∀ k < 30, s.leds1.enReg k = false) := by
  rcases Classical.em (Selects s) with hs | hs
  · rw [or_iff_left fun hn => hn.1 hs, and_iff_right hs]
    constructor
    · intro hno
      obtain ⟨hw1, hw2⟩ := h.window s
      refine ⟨fun k hk hen => ?_, fun k hk hen => ?_⟩
      · obtain ⟨t, ht, -, hshow⟩ := (hno _ _ hw1 hw2).1 k hk hen
        exact lag_le_of_shows1 h hs ht hshow
      · obtain ⟨t, ht, -, hshow⟩ := (hno _ _ hw1 hw2).2 k hk hen
        exact lag_of_shows2 h hs ht hshow
    · intro hv a n hw1 hw2
      refine ⟨fun k hk hen => ?_, fun k hk hen => ?_⟩
      · exact exists_shows1 h hs hm hw1 hw2 hk hen (hv.1 k hk hen)
      · exact exists_shows2 h hs hm hw1 hw2 hk hen (hv.2 k hk hen).1 (hv.2 k hk hen).2
  · rw [or_iff_right fun hn => hs hn.1, and_iff_right hs]
    exact noStarvation_stuck h hs hm

/-- Releases at clocks `r₁` and `r₂`, and nothing else. -/
def releases (m : BitVec 24) (r₁ r₂ t : ℕ) : In :=
  ⟨m, ⟨0xff, if t < r₁ then 2 else 0, 0⟩, ⟨0xff, if t < r₂ then 2 else 0, 0⟩⟩

lemma steady_releases (m : BitVec 24) (r₁ r₂ : ℕ) : Steady (releases m r₁ r₂) m r₁ r₂ where
  reset1 t := by
    show (if t < r₁ then (2 : BitVec 2) else 0).getLsbD 1 = _
    split
    · next ht => rw [decide_eq_true ht]; rfl
    · next ht => rw [decide_eq_false ht]; rfl
  reset2 t := by
    show (if t < r₂ then (2 : BitVec 2) else 0).getLsbD 1 = _
    split
    · next ht => rw [decide_eq_true ht]; rfl
    · next ht => rw [decide_eq_false ht]; rfl
  period _ := rfl
  bright1 _ := rfl
  bright2 _ := rfl
  fixed1 _ := by simp [releases]
  fixed2 _ := by simp [releases]

/-- The first light of the second bar enabled, the first bar dark. -/
def oneLight : State where
  leds1 := ⟨fun _ => false, 0, 0, 0, Pwm.reset, ModMCounter.reset⟩
  leds2 := ⟨fun k => k == 0, 0, 0, 0, Pwm.reset, ModMCounter.reset⟩
  ledIdxReg := 0

/-- The second scanner released one clock before the end of the first one's scan. -/
theorem noStarvation_oneLight :
    NoStarvation oneLight (releases 1 0 59) ↔
      (Selects oneLight ∧ Visible oneLight 1 0 59) ∨
        (¬ Selects oneLight ∧ ∀ k < 30, oneLight.leds1.enReg k = false) :=
  noStarvation_iff (steady_releases 1 0 59) (by decide)

/-- Both scanners released on one clock: the second bar is never shown. -/
theorem starved_same_clock : ¬ NoStarvation oneLight (releases 1 0 0) := by
  intro hno
  have h := steady_releases 1 0 0
  have hs : Selects oneLight := Or.inl rfl
  obtain ⟨hw1, hw2⟩ := h.window oneLight
  obtain ⟨t, ht, -, hshow⟩ := (hno _ _ hw1 hw2).2 0 (by decide) rfl
  have hlag := (lag_of_shows2 h hs ht hshow).1
  exact absurd hlag (by decide)

end Blastit.Rtl.LedBars
