import Blastit.Rtl.LedMatrix

/-!
The two LED bars of `blastit_main.v` on one matrix of lines.

Each bar has its own `led_matrix`. The column lines `G` are those of the bar that
`led_idx_next` selects; the row lines `D` of both bars are always driven. A light is on
where its column and its row are driven, whichever matrix drives them.
-/

namespace Blastit.Rtl.LedBars

open Blastit.Lib.Clocked

/-- `LEDS_N`, `LEDS_M`, `LEDS_N_BITS`, `LEDS_M_BITS`, `LEDS_PWM_BITS`, `LED_PERIOD_BITS`. -/
abbrev params : LedMatrix.Params := ⟨10, 3, 4, 4, 8, 24⟩

lemma params_room : params.Room := by constructor <;> decide

structure State where
  leds1 : LedMatrix.State params
  leds2 : LedMatrix.State params
  ledIdxReg : BitVec 3

/-- The registers the MCU drives for one bar. -/
structure Ports where
  brightness : BitVec 8
  resetControl : BitVec 2
  wrVal : BitVec 10

structure In where
  ledPeriod : BitVec 24
  leds1 : Ports
  leds2 : Ports

/-- `{ reset, counter_reset }` and `{ sel, en, sel_addr }`. -/
def Ports.wires (r : Ports) (ledPeriod : BitVec 24) : LedMatrix.In params where
  reset := r.resetControl.getLsbD 1
  brightness := r.brightness
  selAddr := r.wrVal.setWidth 8
  sel := r.wrVal.getLsbD 9
  en := r.wrVal.getLsbD 8
  ledPeriod := ledPeriod

def In.wires1 (i : In) : LedMatrix.In params := i.leds1.wires i.ledPeriod

def In.wires2 (i : In) : LedMatrix.In params := i.leds2.wires i.ledPeriod

def done1 (s : State) (i : In) : Bool := LedMatrix.doneTick s.leds1 i.wires1

def done2 (s : State) (i : In) : Bool := LedMatrix.doneTick s.leds2 i.wires2

/-- The selector; the second `if` sees what the first has assigned. -/
def ledIdxNext (s : State) (i : In) : BitVec 3 :=
  let idx := if done1 s i && s.ledIdxReg == 0 then 1 else s.ledIdxReg
  if done2 s i && idx == 1 then 0 else idx

def next (s : State) (i : In) : State where
  leds1 := LedMatrix.next s.leds1 i.wires1
  leds2 := LedMatrix.next s.leds2 i.wires2
  ledIdxReg := ledIdxNext s i

def ledsNEn (s : State) (i : In) : BitVec params.ledsN :=
  if ledIdxNext s i = 0 then LedMatrix.nEn s.leds1 i.wires1 else LedMatrix.nEn s.leds2 i.wires2

def g (s : State) (i : In) (n : ℕ) : Bool := (ledsNEn s i).getLsbD n

/-- Row line `d` is driven: the first three by the first matrix, the others by the second. -/
def d (s : State) (i : In) (k : ℕ) : Bool :=
  if k < 3 then (LedMatrix.mEn s.leds1 i.wires1).getLsbD k
  else (LedMatrix.mEn s.leds2 i.wires2).getLsbD (k - 3)

/-- The registers at power-up or in reset; enable bits and selector hold anything. -/
def start (s : State) : State :=
  { s with leds1 := LedMatrix.reset s.leds1, leds2 := LedMatrix.reset s.leds2 }

def run (s : State) (inp : ℕ → In) (t : ℕ) : State := exec next (start s) inp t

variable {s : State} {i : In} {inp : ℕ → In} {t : ℕ}

lemma scan_run (s : State) (inp : ℕ → In) (t : ℕ) :
    LedMatrix.Scan (run s inp t).leds1 ∧ LedMatrix.Scan (run s inp t).leds2 := by
  refine exec_inv_all (I := fun s : State => LedMatrix.Scan s.leds1 ∧ LedMatrix.Scan s.leds2)
    ?_ (fun s i h => ?_) t
  · exact ⟨LedMatrix.scan_reset params_room _, LedMatrix.scan_reset params_room _⟩
  · exact ⟨h.1.next params_room _, h.2.next params_room _⟩

/-! ### Ghosts -/

/-- The column and the row each matrix stands at. -/
def col1 (s : State) (i : In) : ℕ := (LedMatrix.visible s.leds1 i.wires1).nIReg.toNat

def row1 (s : State) (i : In) : ℕ := (LedMatrix.visible s.leds1 i.wires1).mIReg.toNat

def col2 (s : State) (i : In) : ℕ := (LedMatrix.visible s.leds2 i.wires2).nIReg.toNat

def row2 (s : State) (i : In) : ℕ := (LedMatrix.visible s.leds2 i.wires2).mIReg.toNat

def lit1 (s : State) (i : In) : Bool := LedMatrix.lit s.leds1 i.wires1

def lit2 (s : State) (i : In) : Bool := LedMatrix.lit s.leds2 i.wires2

/-- Only enabled lights are on. -/
def NoGhost (s : State) (i : In) : Prop :=
  ∀ n < 10, ∀ m < 3,
    (g s i n = true → d s i m = true → s.leds1.enReg (m * 10 + n) = true) ∧
    (g s i n = true → d s i (3 + m) = true → s.leds2.enReg (m * 10 + n) = true)

lemma g_iff {n : ℕ} (hn : n < 10) :
    g s i n = true ↔
      if ledIdxNext s i = 0 then lit1 s i = true ∧ n = col1 s i
      else lit2 s i = true ∧ n = col2 s i := by
  unfold g ledsNEn
  by_cases h : ledIdxNext s i = 0
  · rw [if_pos h, if_pos h]
    exact LedMatrix.nEn_getLsbD s.leds1 i.wires1 hn
  · rw [if_neg h, if_neg h]
    exact LedMatrix.nEn_getLsbD s.leds2 i.wires2 hn

lemma d_iff1 {m : ℕ} (hm : m < 3) : d s i m = true ↔ lit1 s i = true ∧ m = row1 s i := by
  rw [d, if_pos hm]
  exact LedMatrix.mEn_getLsbD s.leds1 i.wires1 hm

lemma d_iff2 {m : ℕ} (hm : m < 3) : d s i (3 + m) = true ↔ lit2 s i = true ∧ m = row2 s i := by
  rw [d, if_neg (by omega), Nat.add_sub_cancel_left]
  exact LedMatrix.mEn_getLsbD s.leds2 i.wires2 hm

/-- **One clock**: ghosts are exactly the disabled lights where the column of the selected
matrix crosses the row of the other. -/
lemma noGhost_iff (h1 : LedMatrix.Scan s.leds1) (h2 : LedMatrix.Scan s.leds2) :
    NoGhost s i ↔ (lit1 s i = true → lit2 s i = true →
      (ledIdxNext s i ≠ 0 → s.leds1.enReg (row1 s i * 10 + col2 s i) = true) ∧
        (ledIdxNext s i = 0 → s.leds2.enReg (row2 s i * 10 + col1 s i) = true)) := by
  have hv1 := h1.visible params_room i.wires1
  have hv2 := h2.visible params_room i.wires2
  constructor
  · intro h hl1 hl2
    constructor
    · intro hsel
      have hg : g s i (col2 s i) = true :=
        (g_iff hv2.n_lt).mpr (by rw [if_neg hsel]; exact ⟨hl2, rfl⟩)
      exact (h _ hv2.n_lt _ hv1.m_lt).1 hg ((d_iff1 hv1.m_lt).mpr ⟨hl1, rfl⟩)
    · intro hsel
      have hg : g s i (col1 s i) = true :=
        (g_iff hv1.n_lt).mpr (by rw [if_pos hsel]; exact ⟨hl1, rfl⟩)
      exact (h _ hv1.n_lt _ hv2.m_lt).2 hg ((d_iff2 hv2.m_lt).mpr ⟨hl2, rfl⟩)
  · intro h n hn m hm
    by_cases hsel : ledIdxNext s i = 0
    · constructor
      · intro hg hd
        rw [g_iff hn, if_pos hsel] at hg
        obtain ⟨hl1, rfl⟩ := (d_iff1 hm).mp hd
        rw [hg.2]
        exact h1.enabled_of_lit params_room hl1
      · intro hg hd
        rw [g_iff hn, if_pos hsel] at hg
        obtain ⟨hl2, rfl⟩ := (d_iff2 hm).mp hd
        rw [hg.2]
        exact (h hg.1 hl2).2 hsel
    · constructor
      · intro hg hd
        rw [g_iff hn, if_neg hsel] at hg
        obtain ⟨hl1, rfl⟩ := (d_iff1 hm).mp hd
        rw [hg.2]
        exact (h hl1 hg.1).1 hsel
      · intro hg hd
        rw [g_iff hn, if_neg hsel] at hg
        obtain ⟨hl2, rfl⟩ := (d_iff2 hm).mp hd
        rw [hg.2]
        exact h2.enabled_of_lit params_room hl2

end Blastit.Rtl.LedBars
