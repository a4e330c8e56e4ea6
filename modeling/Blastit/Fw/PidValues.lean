import Blastit.Fw.PidBounds
import Blastit.Fw.Obd2Polling

/-!
What the decoder makes of a response: no value at all.

A mode is `tohex` of two characters less `0x40`, so the high byte of a record's code is
`0xC0` and more, and the PID after it only adds to the code. None of the codes
`obd2_update_pid_values` asks for is that large, so every reading stays what it was.
-/

namespace Blastit.Fw.PidParser

open Blastit.Lib.Text Blastit.Lib.Calls Blastit.Fw.Uart

/-! ### The codes of the records -/

/-- A code the decoder can store: none, or one with the highest bit set. -/
def Foreign (code : BitVec 16) : Prop := code = 0 ∨ code.msb = true

/-- Every code is foreign, and within a record its own has the highest bit set. -/
structure Coded (c : Cursor) : Prop where
  foreign : ∀ i, Foreign (c.pids i).code
  current : c.pidSize ≠ 0 → ∀ i : Fin pidStorageSize, (i.val : ℤ) = c.iPid →
    (c.pids i).code.msb = true

section
variable {s : List Byte} {c c' : Cursor} {i : Fin pidStorageSize} {d d' : Data} {b : Bool}

lemma coded_start : Coded start := ⟨fun _ => Or.inl rfl, fun h => absurd rfl h⟩

lemma Coded.goto (h : Coded c) (q : Reader) : Coded (c.goto q) := ⟨h.foreign, h.current⟩

lemma pidAt_eq (h : pidAt c = .ok i) : (i.val : ℤ) = c.iPid := by
  unfold pidAt at h
  split_ifs at h with hi
  cases h
  exact Int.toNat_of_nonneg hi.1

lemma Coded.update {p : Pid} (h : Coded c) (hp : p.code.msb = true) (hi : (i.val : ℤ) = c'.iPid)
    (hpids : c'.pids = Function.update c.pids i p) : Coded c' := by
  have hself : (c'.pids i).code.msb = true := by rw [hpids, Function.update_self]; exact hp
  refine ⟨fun j => ?_, fun _ j hj => ?_⟩
  · by_cases hij : j = i
    · subst hij
      exact Or.inr hself
    · rw [hpids, Function.update_of_ne hij]
      exact h.foreign j
  · obtain rfl : j = i := Fin.ext (by omega)
    exact hself

/-- **A token keeps the codes foreign**: a mode is too large, and what follows is added to it. -/
lemma Coded.store (h : Coded c) {token : Byte × Byte} (hs : store c token = .ok c') : Coded c' := by
  unfold PidParser.store storeToken at hs
  by_cases hmode : c.pidSize = 0
  · -- the mode of the next record
    rw [if_pos hmode] at hs
    obtain ⟨i, hi, hs⟩ := bind_eq_ok.mp hs
    cases hs
    refine h.update ?_ (pidAt_eq hi) rfl
    exact (mode_code token.1 token.2).2
  rw [if_neg hmode] at hs
  obtain ⟨i, hi, hs⟩ := bind_eq_ok.mp hs
  have hmsb := h.current hmode i (pidAt_eq hi)
  split_ifs at hs with hlow hpos hend
  · -- its PID
    cases hs
    refine h.update ?_ (pidAt_eq hi) rfl
    exact (BitVec.msb_or ..).trans (by rw [hmsb, Bool.true_or])
  · -- its data
    cases hs
    refine h.update ?_ (pidAt_eq hi) rfl
    exact hmsb
  · cases hs
    exact h

lemma Coded.parseStep (h : Coded c) (hs : parseStep s c = .ok c') : Coded c' := by
  rw [parseStep_eq] at hs
  obtain ⟨⟨q, token⟩, -, hs⟩ := bind_eq_ok.mp hs
  obtain ⟨c₁, hstore, hs⟩ := bind_eq_ok.mp hs
  cases hs
  cases token with
  | none =>
    cases hstore
    exact h.goto q
  | some token => exact (h.store hstore).goto q

lemma Coded.parseLoop (h : Coded c) {k : ℕ} (hs : parseLoop s k c = .ok c') : Coded c' := by
  induction k generalizing c with
  | zero => cases hs
  | succ k ih =>
    obtain ⟨ch, -, hs⟩ := bind_eq_ok.mp hs
    split_ifs at hs with h0
    · cases hs
      exact h
    · obtain ⟨c₁, hstep, hs⟩ := bind_eq_ok.mp hs
      exact ih (h.parseStep hstep) hs

/-! ### The readings -/

lemma Foreign.ne (h : Foreign (d.pids i).code) {code : BitVec 16} (h0 : code ≠ 0)
    (hmsb : code.msb = false) : (d.pids i).code ≠ code := by
  rintro rfl
  rcases h with h | h
  · exact h0 h
  · rw [hmsb] at h
    cases h

lemma updatePidValue_foreign (h : Foreign (d.pids i).code) : updatePidValue d i = d := by
  unfold updatePidValue
  dsimp only
  rw [if_neg (h.ne (by decide) rfl), if_neg (h.ne (by decide) rfl), if_neg (h.ne (by decide) rfl),
    if_neg (h.ne (by decide) rfl), if_neg (h.ne (by decide) rfl), if_neg (h.ne (by decide) rfl),
    if_neg (h.ne (by decide) rfl), if_neg (h.ne (by decide) rfl)]

lemma obd2UpdatePidValues_foreign (h : ∀ i, Foreign (d.pids i).code) :
    obd2UpdatePidValues d = d := by
  have hrun : ∀ l : List (Fin pidStorageSize), l.foldl updatePidValue d = d := by
    intro l
    induction l with
    | nil => rfl
    | cons i l ih => rw [List.foldl_cons, updatePidValue_foreign (h i), ih]
  exact hrun _

/-- What no response changes, and what it leaves in the records. -/
structure Blind (d d' : Data) : Prop where
  displayParams : d'.displayParams = d.displayParams
  boostRef : d'.boostRef = d.boostRef
  codes : ∀ i, Foreign (d'.pids i).code

/-- **No response changes a reading**, whatever its text. -/
theorem blind_of_parse (h : obd2ParsePidResponse s d = .ok (b, d')) : Blind d d' := by
  unfold obd2ParsePidResponse at h
  dsimp only at h
  have hnone : Blind d { d with pids := noPids } := ⟨rfl, rfl, fun _ => Or.inl rfl⟩
  split_ifs at h with hmem href hdata
  · cases h
    exact hnone
  · cases h
    exact hnone
  · obtain ⟨c, hloop, hs⟩ := bind_eq_ok.mp h
    have hcodes := (coded_start.parseLoop hloop).foreign
    rw [obd2UpdatePidValues_foreign (d := { d with pids := c.pids }) hcodes] at hs
    cases hs
    exact ⟨rfl, rfl, hcodes⟩

end

end Blastit.Fw.PidParser

namespace Blastit.Fw.Obd2

open Blastit.Lib.Text Blastit.Lib.Calls Blastit.Fw.Uart Blastit.Fw.Line Blastit.Fw.PidParser

/-! ### Runs -/

section
variable {env : ℕ → Poll} {fuel n : ℕ} {p s s' s₀ : State} {response : List Byte} {b : Bool}

@[simp] lemma obd2StateEntry_data (s : State) : (obd2StateEntry s).data = s.data := by
  rw [obd2StateEntry_eq]

lemma readline_data {sync : Bool} {bufsz : ℕ} {q : ℤ × Option (List Byte) × State}
    (h : readline env sync bufsz fuel s = some q) : q.2.2.data = s.data := by
  simp only [readline, Option.map_eq_some_iff] at h
  obtain ⟨r, -, rfl⟩ := h
  rfl

/-- The codes of the last response, and readings no response has changed. -/
structure Unread (d : Data) (s : State) : Prop where
  displayParams : s.data.displayParams = d.displayParams
  boostRef : s.data.boostRef = d.boostRef
  codes : ∀ i, Foreign (s.data.pids i).code

lemma Unread.of_data {d : Data} (h : Unread d s) (hd : s'.data = s.data) : Unread d s' :=
  ⟨hd ▸ h.displayParams, hd ▸ h.boostRef, hd ▸ h.codes⟩

lemma Unread.obd2StateExit {d : Data} (h : Unread d s) (he : obd2StateExit response s = .ok s') :
    Unread d s' := by
  obtain ⟨-, rfl⟩ | ⟨-, d', ⟨hparse, rfl⟩ | ⟨hparse, rfl⟩⟩ := obd2StateExit_cases he
  · exact h.of_data (nextState_data _)
  all_goals
    obtain ⟨hparams, href, hcodes⟩ := blind_of_parse hparse
    exact Unread.of_data (s := { s with data := d' })
      ⟨hparams.trans h.displayParams, href.trans h.boostRef, hcodes⟩ (by simp [nextState_data])

lemma Unread.obd2Update {d : Data} {junk : List Byte} (h : Unread d s)
    (hu : obd2Update env junk s = .ok (b, s')) : Unread d s' := by
  cases hr : readline env false obd2PidMaxN lineFuel s with
  | none => simp [Obd2.obd2Update, hr] at hu
  | some q =>
    obtain ⟨rc, str, s₁⟩ := q
    have h₁ : Unread d s₁ := h.of_data (readline_data hr)
    simp only [Obd2.obd2Update, hr] at hu
    split_ifs at hu
    · obtain ⟨s₂, he, hs⟩ := bind_eq_ok.mp hu
      cases hs
      exact (h₁.obd2StateExit he).of_data (obd2StateEntry_data _)
    · cases hu
      exact h₁

lemma Unread.sendAll {d : Data} {cmds : List (List Byte)} (h : Unread d s)
    (hall : sendAll env fuel cmds s = some s') : Unread d s' := by
  refine sendAll_inv (fun cmd q b q' hq hc => ?_) h hall
  rw [obd2AtCommand_eq, Option.map_eq_some_iff] at hc
  obtain ⟨r, hr, hs⟩ := hc
  cases hs
  have hsent : Unread d (uartSendline cmd q).2 := hq.of_data rfl
  exact hsent.of_data (readline_data hr)

/-- **No run of the coroutine changes a reading**: from `obd2_init` on, through any number of
calls of `obd2_update`, whatever is received. -/
theorem unread_run {junk : ℕ → List Byte} (hinit : obd2Init env fuel p = some s₀)
    (hrun : run env junk s₀ n = .ok s) :
    s.data.displayParams = p.data.displayParams ∧ s.data.boostRef = 0 ∧
      ∀ i, Foreign (s.data.pids i).code := by
  have h₀ : Unread (obd2Clear p).data s₀ := by
    unfold obd2Init at hinit
    rw [Option.map_eq_some_iff] at hinit
    obtain ⟨s₁, hall, rfl⟩ := hinit
    have hclear : Unread (obd2Clear p).data (obd2Clear p) := ⟨rfl, rfl, fun _ => Or.inl rfl⟩
    exact (hclear.sendAll hall).of_data (by simp)
  have h : Unread (obd2Clear p).data s := by
    induction n generalizing s with
    | zero =>
      cases hrun
      exact h₀
    | succ n ih =>
      obtain ⟨s₁, b, hn, hu⟩ := run_succ hrun
      exact (ih hn).obd2Update hu
  exact ⟨h.displayParams, h.boostRef, h.codes⟩

/-- The adapter answers the three commands, and the first request with a load of `0xFF`. -/
def fullLoad : ℕ → Poll
  | 0 => ⟨ascii ">>>", 0⟩
  | 3 => ⟨ascii "0: 03 41 04 FF \r>", 0⟩
  | _ => ⟨[], 0⟩

/-- The load is not read. -/
theorem unread_fullLoad : ∃ s₀ s, obd2Init fullLoad 5 atStart = some s₀ ∧
    run fullLoad (fun _ => zeros) s₀ 1 = .ok s ∧ s.data.displayParams.load = 0 := by
  have hok : ((obd2Init fullLoad 5 atStart).map fun s₀ =>
      (run fullLoad (fun _ => zeros) s₀ 1).isOk) = some true := by
    decide +kernel
  obtain ⟨s₀, hinit, hrun⟩ := Option.map_eq_some_iff.mp hok
  cases hs : run fullLoad (fun _ => zeros) s₀ 1 with
  | error e => simp [hs, Except.isOk, Except.toBool] at hrun
  | ok s =>
    obtain ⟨hparams, -, -⟩ := unread_run hinit hs
    exact ⟨s₀, s, hinit, hs, by rw [hparams]; rfl⟩

end

end Blastit.Fw.Obd2
