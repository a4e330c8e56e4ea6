import Blastit.Fw.Obd2

/-!
The polling cycle, over runs of the state machine.

With every reply parsed and the engine on, the state and `ba_count` go through one cycle of
places. `ba_count` is compared before it is counted up, so the cycle has one place more for
`BA` than `BA_MODULO_N`.
-/

namespace Blastit.Fw.Obd2

open Blastit.Lib.Text Blastit.Lib.Calls Blastit.Fw.Uart Blastit.Fw.Line Blastit.Fw.PidParser

variable {env : ℕ → Poll} {fuel j n m : ℕ} {p s s' : State} {response : List Byte} {d : Data}

/-! ### Runs -/

def answer (response : List Byte) (s : State) : Except Fault State := do
  let s ← obd2StateExit response s
  return obd2StateEntry s

/-- A run from `obd2_init` on the replies `r`, each in its array, in which every one parses and
the load never signals ignition off. -/
structure Polls (env : ℕ → Poll) (fuel : ℕ) (p : State) (r : ℕ → List Byte) (s : ℕ → State) :
    Prop where
  init : obd2Init env fuel p = some (s 0)
  step : ∀ k, answer (r k) (s k) = .ok (s (k + 1))
  parses : ∀ k, ∃ d, obd2ParsePidResponse (r k) (s k).data = .ok (true, d) ∧
    ((s k).obd2State = .cilbr → 1 / 10 < d.displayParams.load)

/-- The states in the runs from `obd2_init` on any replies. -/
inductive Reachable (env : ℕ → Poll) (fuel : ℕ) (p : State) : State → Prop
  | init {s : State} (h : obd2Init env fuel p = some s) : Reachable env fuel p s
  | reply {s s' : State} {response : List Byte} (hs : Reachable env fuel p s)
    (h : answer response s = .ok s') : Reachable env fuel p s'

/-- The places of a cycle: one for `CILBr`, one for `Oil`, and those for `BA`, told apart by
`ba_count`. -/
def place : ℕ → Obd2State × BitVec 16
  | 0 => (.cilbr, 0)
  | 1 => (.oil, 0)
  | i + 2 => (.ba, BitVec.ofNat 16 i)

/-- The states visited repeat `CILBr`, `Oil` and `n` times `BA`. -/
def Repeats (n : ℕ) (s : ℕ → State) : Prop := ∀ k, (s k).obd2State = (place (k % (n + 2))).1

/-- The state machine is at place `j`. -/
def Stands (j : ℕ) (s : State) : Prop := (s.obd2State, s.baCount) = place j

/-! ### One call -/

@[simp] lemma obd2StateEntry_obd2State (s : State) :
    (obd2StateEntry s).obd2State = s.obd2State := by rw [obd2StateEntry_eq]

@[simp] lemma obd2StateEntry_baCount (s : State) : (obd2StateEntry s).baCount = s.baCount := by
  rw [obd2StateEntry_eq]

lemma exit_parsed (hq : s.obd2State ≠ .reset)
    (h : obd2ParsePidResponse response s.data = .ok (true, d)) :
    obd2StateExit response s = .ok (nextState { noted response s with data := d }) := by
  simp [obd2StateExit, noted, hq, h, bind, Except.bind, pure, Except.pure]

/-- **A reply that does not parse leads to the reset state**, from any state. -/
theorem exit_failed (h : obd2ParsePidResponse response s.data = .ok (false, d)) :
    ∃ s', obd2StateExit response s = .ok s' ∧ s'.obd2State = .reset := by
  by_cases hq : s.obd2State = .reset
  · refine ⟨nextState (noted response s), ?_, nextState_reset hq⟩
    simp [obd2StateExit, noted, hq, pure, Except.pure]
  · refine ⟨{ noted response s with data := d, obd2State := .reset }, ?_, rfl⟩
    simp [obd2StateExit, noted, hq, h, bind, Except.bind, pure, Except.pure]

/-! ### The places -/

lemma nextState_cilbr (hq : s.obd2State = .cilbr) (hon : 1 / 10 < s.data.displayParams.load) :
    nextState s = { s with obd2State := .oil } := by
  simp only [nextState, hq, if_neg (not_le.mpr hon)]

lemma nextState_oil (hq : s.obd2State = .oil) : nextState s = { s with obd2State := .ba } := by
  simp only [nextState, hq]

/-- `ba_count++ < BA_MODULO_N`. -/
lemma nextState_ba (hq : s.obd2State = .ba) (h : s.baCount < baModuloN) :
    nextState s = { s with baCount := s.baCount + 1, obd2State := .ba } := by
  simp only [nextState, hq, if_pos h]

lemma nextState_last (hq : s.obd2State = .ba) (h : ¬ s.baCount < baModuloN) :
    nextState s = { s with baCount := 0, obd2State := .cilbr } := by
  simp only [nextState, hq, if_neg h]

lemma Stands.ne_reset (h : Stands j s) : s.obd2State ≠ .reset := by
  intro hreset
  rw [Stands, hreset] at h
  match j, h with
  | 0, h | 1, h | _ + 2, h => cases h

/-- **One reply moves on by one place**, and from the last one back to the first. -/
lemma Stands.next (h : Stands j s) (hj : j < baModuloN.toNat + 3)
    (hload : s.obd2State = .cilbr → 1 / 10 < s.data.displayParams.load) :
    Stands ((j + 1) % (baModuloN.toNat + 3)) (nextState s) := by
  have hN : baModuloN.toNat = 10 := rfl
  rw [hN] at hj ⊢
  match j, h with
  | 0, h =>
    obtain ⟨hq, hc⟩ := Prod.mk.inj h
    rw [nextState_cilbr hq (hload hq), Stands, hc]
    rfl
  | 1, h =>
    obtain ⟨hq, hc⟩ := Prod.mk.inj h
    rw [nextState_oil hq, Stands, hc]
    rfl
  | i + 2, h =>
    obtain ⟨hq, hc⟩ := Prod.mk.inj h
    by_cases hi : i < 10
    · have hlt : s.baCount < baModuloN := by
        rw [hc, BitVec.lt_def, BitVec.toNat_ofNat, hN]
        omega
      rw [nextState_ba hq hlt, Stands, hc, Nat.mod_eq_of_lt (by omega)]
      exact congrArg (Prod.mk Obd2State.ba) (BitVec.ofNat_add i 1).symm
    · obtain rfl : i = 10 := by omega
      rw [nextState_last hq (by rw [hc]; decide)]
      rfl

lemma Repeats.le {s : ℕ → State} (hm : Repeats m s) (hn : Repeats n s) : n ≤ m := by
  by_contra hlt
  have h := (hm (m + 2)).symm.trans (hn (m + 2))
  rw [Nat.mod_self, Nat.mod_eq_of_lt (by omega)] at h
  cases h

lemma Repeats.unique {s : ℕ → State} (hm : Repeats m s) (hn : Repeats n s) : m = n :=
  Nat.le_antisymm (hn.le hm) (hm.le hn)

/-! ### From `obd2_init` on -/

lemma readline_baCount {sync : Bool} {bufsz : ℕ} {rc : ℤ} {str : Option (List Byte)}
    (h : readline env sync bufsz fuel s = some (rc, str, s')) : s'.baCount = s.baCount := by
  simp only [readline, Option.map_eq_some_iff, Prod.mk.injEq] at h
  obtain ⟨r, -, -, -, rfl⟩ := h
  rfl

lemma obd2AtCommand_baCount {command : List Byte} {b : Bool}
    (h : obd2AtCommand env fuel command s = some (b, s')) : s'.baCount = s.baCount := by
  rw [obd2AtCommand_eq, Option.map_eq_some_iff] at h
  obtain ⟨q, hr, hq⟩ := h
  obtain rfl := (Prod.mk.inj hq).2
  rw [readline_baCount hr]
  rfl

lemma stands_obd2Init (h : obd2Init env fuel p = some s) : Stands 0 s := by
  rw [obd2Init, Option.map_eq_some_iff] at h
  obtain ⟨s₁, hall, rfl⟩ := h
  have hcount : s₁.baCount = 0 :=
    sendAll_inv (P := fun q => q.baCount = 0)
      (fun _ _ _ _ hq hc => (obd2AtCommand_baCount hc).trans hq) rfl hall
  simp [Stands, place, hcount]

/-- The run lemma: after `k` replies the machine is at place `k` of the cycle. -/
lemma Polls.stands {r : ℕ → List Byte} {s : ℕ → State} (h : Polls env fuel p r s) (k : ℕ) :
    Stands (k % (baModuloN.toNat + 3)) (s k) := by
  induction k with
  | zero => exact stands_obd2Init h.init
  | succ k ih =>
    obtain ⟨d, hparse, hload⟩ := h.parses k
    have hstep := h.step k
    rw [answer, exit_parsed ih.ne_reset hparse] at hstep
    have hread : Stands (k % (baModuloN.toNat + 3)) { noted (r k) (s k) with data := d } := ih
    have hnext := hread.next (Nat.mod_lt _ (by omega)) hload
    rw [Nat.mod_add_mod] at hnext
    rw [← Except.ok.inj hstep, Stands, obd2StateEntry_obd2State, obd2StateEntry_baCount]
    exact hnext

lemma nextState_baCount_le (h : s.baCount ≤ baModuloN) : (nextState s).baCount ≤ baModuloN := by
  unfold nextState
  split
  · split_ifs <;> exact h
  · exact h
  · split_ifs with hlt
    · show s.baCount + 1 ≤ baModuloN
      bv_omega
    · exact Nat.zero_le _
  · exact h

lemma answer_baCount_le (h : s.baCount ≤ baModuloN) (hstep : answer response s = .ok s') :
    s'.baCount ≤ baModuloN := by
  obtain ⟨s₁, hexit, hs⟩ := bind_eq_ok.mp hstep
  cases hs
  rw [obd2StateEntry_baCount]
  obtain ⟨-, rfl⟩ | ⟨-, d, ⟨-, rfl⟩ | ⟨-, rfl⟩⟩ := obd2StateExit_cases hexit
  · exact nextState_baCount_le h
  · exact nextState_baCount_le h
  · exact h

lemma obd2Init_baCount_le (h : obd2Init env fuel p = some s) : s.baCount ≤ baModuloN := by
  rw [(Prod.mk.inj (stands_obd2Init h)).2]
  exact Nat.zero_le _

lemma Reachable.baCount_le (h : Reachable env fuel p s) : s.baCount ≤ baModuloN := by
  induction h with
  | init hinit => exact obd2Init_baCount_le hinit
  | reply _ hstep ih => exact answer_baCount_le ih hstep

/-- Nor does it over any calls of `obd2_update`. -/
theorem run_baCount_le {junk : ℕ → List Byte} {s₀ : State}
    (hinit : obd2Init env fuel p = some s₀) (hrun : run env junk s₀ n = .ok s) :
    s.baCount ≤ baModuloN := by
  induction n generalizing s with
  | zero =>
    cases hrun
    exact obd2Init_baCount_le hinit
  | succ n ih =>
    obtain ⟨s₁, b, hn, hu⟩ := run_succ hrun
    cases hr : readline env false obd2PidMaxN lineFuel s₁ with
    | none => simp [obd2Update, hr] at hu
    | some q =>
      obtain ⟨rc, str, s₃⟩ := q
      have hread : s₃.baCount ≤ baModuloN := by
        rw [readline_baCount hr]
        exact ih hn
      simp only [obd2Update, hr] at hu
      split_ifs at hu
      · obtain ⟨s₄, hexit, hs⟩ := bind_eq_ok.mp hu
        refine answer_baCount_le hread (bind_eq_ok.mpr ⟨s₄, hexit, ?_⟩)
        cases hs
        rfl
      · cases hu
        exact hread

/-- **The polling cycle has one boost reply more than `BA_MODULO_N`**, in every run from
`obd2_init` on replies that parse, with the engine on. On any replies `ba_count` stays within
its bound, and one that does not parse leads to the reset state. -/
theorem polling_cycle {r : ℕ → List Byte} {s : ℕ → State} (h : Polls env fuel p r s) :
    (¬ Repeats baModuloN.toNat s ∧ Repeats (baModuloN.toNat + 1) s) ∧
      (∀ q, Reachable env fuel p q → q.baCount ≤ baModuloN) ∧
      ∀ q response d, obd2ParsePidResponse response q.data = .ok (false, d) →
        ∃ q', obd2StateExit response q = .ok q' ∧ q'.obd2State = .reset := by
  have hcycle : Repeats (baModuloN.toNat + 1) s := fun k => congrArg Prod.fst (h.stands k)
  refine ⟨⟨fun hN => ?_, hcycle⟩, fun q hq => hq.baCount_le, fun q response d hd => exit_failed hd⟩
  exact absurd (hN.unique hcycle) (by decide)

/-! ### An adapter without data -/

def connected : ℕ → Poll
  | 0 => ⟨ascii ">>>", 0⟩
  | _ => ⟨[], 0⟩

/-- The engine is on when `obd2_init` is called. -/
def engineOn : State := { atStart with data := engineData }

def noData : List Byte := ascii "NO DATA\r\r" ++ [0]

lemma parse_noData (d : Data) :
    obd2ParsePidResponse noData d = .ok (true, { d with pids := noPids }) := by
  have htext : StringAt noData 0 (ascii "NO DATA\r\r") := stringAt_append (by decide) []
  have href : refused (ascii "NO DATA\r\r") = false := by decide
  have hdata : (strstr (ascii "NO DATA\r\r") (ascii "NO DATA")).isSome = true := by decide
  simp [obd2ParsePidResponse_eq htext, href, hdata]

lemma nextState_data (s : State) : (nextState s).data = s.data := by
  unfold nextState
  split <;> (try split_ifs) <;> rfl

lemma answer_noData (s : State) :
    ∃ s', answer noData s = .ok s' ∧ s'.data.displayParams = s.data.displayParams := by
  by_cases hq : s.obd2State = .reset
  · refine ⟨obd2StateEntry (nextState (noted noData s)), ?_, ?_⟩
    · simp [answer, obd2StateExit, noted, hq, bind, Except.bind, pure, Except.pure]
    · simp [obd2StateEntry_eq, nextState_data, noted]
  · refine ⟨obd2StateEntry (nextState { noted noData s with data.pids := noPids }), ?_, ?_⟩
    · rw [answer, exit_parsed hq (parse_noData s.data)]
      rfl
    · simp [obd2StateEntry_eq, nextState_data, noted]

def noDataRun (s₀ : State) : ℕ → State
  | 0 => s₀
  | k + 1 =>
    match answer noData (noDataRun s₀ k) with
    | .ok s => s
    | .error _ => noDataRun s₀ k

lemma noDataRun_step (s₀ : State) (k : ℕ) :
    answer noData (noDataRun s₀ k) = .ok (noDataRun s₀ (k + 1)) := by
  obtain ⟨s', hs', -⟩ := answer_noData (noDataRun s₀ k)
  rw [noDataRun, hs']

lemma noDataRun_displayParams (s₀ : State) (k : ℕ) :
    (noDataRun s₀ k).data.displayParams = s₀.data.displayParams := by
  induction k with
  | zero => rfl
  | succ k ih =>
    obtain ⟨s', hs', hdata⟩ := answer_noData (noDataRun s₀ k)
    rw [noDataRun_step] at hs'
    rw [Except.ok.inj hs', hdata, ih]

lemma polls_noData : ∃ s₀, Polls connected 5 engineOn (fun _ => noData) (noDataRun s₀) := by
  obtain ⟨s₀, hinit, hload⟩ : ∃ s₀, obd2Init connected 5 engineOn = some s₀ ∧
      s₀.data.displayParams.load = 50 := ⟨_, rfl, rfl⟩
  refine ⟨s₀, hinit, noDataRun_step s₀, fun k => ⟨_, parse_noData _, fun _ => ?_⟩⟩
  dsimp only
  rw [noDataRun_displayParams, hload]
  norm_num

theorem polling_cycle_noData : ∃ s, Polls connected 5 engineOn (fun _ => noData) s ∧
    Repeats 11 s ∧ ¬ Repeats 10 s := by
  obtain ⟨s₀, h⟩ := polls_noData
  obtain ⟨⟨hnot, hcycle⟩, -, -⟩ := polling_cycle h
  exact ⟨_, h, hcycle, hnot⟩

/-- The adapter has no data for any request, and the machine comes back to `CILBr` after
thirteen replies. -/
theorem not_polling_cycle : ¬ ∀ s, Polls connected 5 engineOn (fun _ => noData) s →
    Repeats baModuloN.toNat s := by
  intro hall
  obtain ⟨s₀, h⟩ := polls_noData
  have hlate : Stands (12 % 13) (noDataRun s₀ 12) := h.stands 12
  have hearly := hall _ h 12
  rw [(Prod.mk.inj hlate).1] at hearly
  cases hearly

end Blastit.Fw.Obd2
