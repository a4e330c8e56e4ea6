import Blastit.Fw.Coroutine
import Blastit.Fw.PidValues
import Blastit.Fw.SelfReset

/-!
`controller.c`: what `coroutine_entry` calls, and the end of `main`.

The load is zero at power-up and no response changes it, so the first reply reads as ignition
off: the loop ends in its first round, before it has drawn anything.
-/

namespace Blastit.Fw.MainLoop

open Blastit.Lib.Text Blastit.Lib.Calls Blastit.Fw.Line Blastit.Fw.Obd2 Blastit.Fw.PidParser
open Blastit.Fw.Coroutine
open Blastit.Fw.Uart hiding State

/-- `ResetTicks` of `shutdown`: `CLOCK_MILLIS_TO_TICKS(5000)` at 32 bits. -/
def resetTicks : BitVec 32 := 5000 * 1000000 / 20

variable {env : ℕ → Poll} {fuel n : ℕ} {junk : List Byte} {junks : ℕ → List Byte}
  {isFrame : ℕ → Bool} {o o' s s' s₀ p : State} {l l' : Loop} {b : Bool}

/-! ### A call returns -/

lemma coroutineEntry_returns (hport : Quiet o.port) (n : ℕ) :
    (∃ l, coroutineEntry env junks isFrame o n = .ok l) ∨
      ∃ e, coroutineEntry env junks isFrame o n = .error e ∧ Leaves e := by
  induction n with
  | zero => exact .inl ⟨_, rfl⟩
  | succ n ih =>
    rw [coroutineEntry]
    rcases ih with ⟨l, hl⟩ | ⟨e, hl, he⟩
    · rw [hl]
      dsimp only [bind, Except.bind]
      by_cases hrun : l.running = true
      · rw [if_pos hrun, Coroutine.round]
        rcases obd2Update_returns env (junks n)
          (quiet_coroutineEntry hport hl) with ⟨running, o', hu, -⟩ | ⟨e, hu, he⟩
        · rw [hu]
          dsimp only [bind, Except.bind]
          split
          · exact .inl ⟨_, rfl⟩
          · exact .inl ⟨_, rfl⟩
        · rw [hu]
          exact .inr ⟨e, rfl, he⟩
      · rw [if_neg hrun]
        exact .inl ⟨_, rfl⟩
    · rw [hl]
      exact .inr ⟨e, rfl, he⟩

/-! ### The order of the calls -/

def callsOf (isFrame : ℕ → Bool) (m : ℕ) : List Call :=
  (if m = 0 then [] else [Call.displayInit]) ++
    (List.range m).flatMap fun k => (if isFrame k then [Call.displayUpdate] else []) ++ [.waitTick 1]

/-- After `n` rounds, of which the first `m` went on: the loop has made the calls of these, and
still runs if they are all. -/
structure Ordered (isFrame : ℕ → Bool) (n m : ℕ) (l : Loop) : Prop where
  running : l.running = true ↔ n ≤ m
  calls : l.calls = callsOf isFrame (min n m)
  initialized : l.displayInitialized = decide (min n m ≠ 0)

/-- A call of `obd2_update` that says to go on does not leave the coroutine reset, so the
guard of the display is always passed. -/
lemma not_reset_of_running (h : obd2Update env junk o = .ok (true, o')) :
    o'.obd2State ≠ .reset := by
  unfold obd2Update at h
  cases hr : readline env false obd2PidMaxN lineFuel o with
  | none => simp [hr] at h
  | some q =>
    obtain ⟨rc, str, s₁⟩ := q
    simp only [hr] at h
    split_ifs at h
    · obtain ⟨s₂, -, hs⟩ := bind_eq_ok.mp h
      simp only [pure, Except.pure, Except.ok.injEq, Prod.mk.injEq, decide_eq_true_eq] at hs
      rw [← hs.2]
      exact hs.1
    · cases h

lemma calls_display (hq : l.obd2.obd2State ≠ .reset) :
    (display b l).calls = l.calls ++ (if l.displayInitialized then [] else [Call.displayInit]) ++
        (if b then [Call.displayUpdate] else []) ∧
      (display b l).displayInitialized = true ∧ (display b l).running = l.running := by
  unfold display
  rw [if_pos hq]
  cases hd : l.displayInitialized <;> cases b <;> simp [displayInit, displayUpdate, hd]

lemma callsOf_succ (m : ℕ) :
    callsOf isFrame (m + 1) = callsOf isFrame m ++ (if m ≠ 0 then [] else [Call.displayInit]) ++
      (if isFrame m then [Call.displayUpdate] else []) ++ [.waitTick 1] := by
  unfold callsOf
  rw [List.range_succ, List.flatMap_append]
  rcases Nat.eq_zero_or_pos m with rfl | hm
  · simp
  · have hne : m ≠ 0 := by omega
    simp [hne]

/-- A round of a loop that runs goes on with the calls of one more, or ends it with none. -/
lemma Ordered.round {m : ℕ} (h : Ordered isFrame n m l) (hrun : l.running = true)
    (hr : Coroutine.round env junk (isFrame n) l = .ok l') :
    Ordered isFrame (n + 1) (if l'.running then n + 1 else n) l' := by
  have hle := h.running.mp hrun
  obtain ⟨-, hcalls, hinit⟩ := h
  rw [Nat.min_eq_left hle] at hcalls hinit
  obtain ⟨⟨running, o'⟩, hu, hs⟩ := bind_eq_ok.mp hr
  cases running with
  | false =>
    cases hs
    simp only [Bool.false_eq_true, if_false]
    exact ⟨by simp, by rw [Nat.min_eq_right (by omega), hcalls],
      by rw [Nat.min_eq_right (by omega), hinit]⟩
  | true =>
    cases hs
    have hq : ({ l with obd2 := o' } : Loop).obd2.obd2State ≠ .reset := not_reset_of_running hu
    obtain ⟨hc, hi, hgo⟩ := calls_display (b := isFrame n) hq
    have hgo' : (waitTick 1 (display (isFrame n) { l with obd2 := o' })).running = true :=
      hgo.trans hrun
    rw [if_pos hgo']
    refine ⟨iff_of_true hgo' le_rfl, ?_, by simpa [waitTick] using hi⟩
    rw [Nat.min_self, callsOf_succ, waitTick, hc, hinit, ← hcalls]
    simp

lemma Ordered.idle {m : ℕ} (h : Ordered isFrame n m l) (hrun : ¬ l.running = true) :
    Ordered isFrame (n + 1) m l := by
  have hlt : m < n := by
    rw [h.running] at hrun
    omega
  obtain ⟨-, hcalls, hinit⟩ := h
  rw [Nat.min_eq_right (by omega)] at hcalls hinit
  exact ⟨iff_of_false hrun (by omega), by rw [Nat.min_eq_right (by omega), hcalls],
    by rw [Nat.min_eq_right (by omega), hinit]⟩

lemma ordered_run (h : coroutineEntry env junks isFrame o n = .ok l) :
    ∃ m ≤ n, ∀ k ≤ n, ∃ lk, coroutineEntry env junks isFrame o k = .ok lk ∧
      Ordered isFrame k m lk := by
  induction n generalizing l with
  | zero =>
    cases h
    refine ⟨0, le_rfl, fun k hk => ?_⟩
    obtain rfl : k = 0 := by omega
    exact ⟨_, rfl, by simp, rfl, rfl⟩
  | succ n ih =>
    obtain ⟨l₁, hn, hrest⟩ := bind_eq_ok.mp h
    obtain ⟨m, hm, hall⟩ := ih hn
    obtain ⟨l₂, hl₂, hord⟩ := hall n le_rfl
    obtain rfl : l₁ = l₂ := Except.ok.inj (hn.symm.trans hl₂)
    split_ifs at hrest with hrun
    · -- the loop has not ended before, so all rounds so far went on
      obtain rfl : n = m := Nat.le_antisymm (hord.running.mp hrun) hm
      refine ⟨if l.running then n + 1 else n, by split_ifs <;> omega, fun k hk => ?_⟩
      rcases Nat.lt_or_eq_of_le hk with hlt | rfl
      · obtain ⟨lk, hlk, hk'⟩ := hall k (by omega)
        refine ⟨lk, hlk, ?_⟩
        have hmin : min k (if l.running then n + 1 else n) = min k n := by
          split_ifs <;> omega
        have hle : k ≤ (if l.running then n + 1 else n) ↔ k ≤ n := by
          split_ifs <;> omega
        exact ⟨hk'.running.trans hle.symm, by rw [hmin, hk'.calls],
          by rw [hmin, hk'.initialized]⟩
      · exact ⟨l, h, hord.round hrun hrest⟩
    · cases hrest
      refine ⟨m, by omega, fun k hk => ?_⟩
      rcases Nat.lt_or_eq_of_le hk with hlt | rfl
      · exact hall k (by omega)
      · exact ⟨_, h, hord.idle hrun⟩

/-- **`display_init` is called once, in the first round that goes on, and `display_update`
only after it**: from any state of the coroutine between two calls, some first rounds of the loop go
on and the next one ends it; the calls after any number of rounds are those of the rounds that
went on, in order, and no others. Or the decoder leaves its data in one of the rounds. -/
theorem calls_ordered (hport : Quiet o.port) (n : ℕ) :
    (∃ m ≤ n, ∀ k ≤ n, ∃ lk, coroutineEntry env junks isFrame o k = .ok lk ∧
      (lk.running = true ↔ k ≤ m) ∧ lk.calls = callsOf isFrame (min k m)) ∨
    ∃ e, coroutineEntry env junks isFrame o n = .error e ∧ Leaves e := by
  rcases coroutineEntry_returns hport n with ⟨l, h⟩ | herror
  · obtain ⟨m, hm, hall⟩ := ordered_run h
    refine .inl ⟨m, hm, fun k hk => ?_⟩
    obtain ⟨lk, hlk, hord⟩ := hall k hk
    exact ⟨lk, hlk, hord.running, hord.calls⟩
  · exact .inr herror

/-- Three rounds go on, and a frame is due in every second one. -/
theorem calls_ordered_promptly : ∃ l,
    coroutineEntry promptly (fun _ => zeros) (fun k => k % 2 == 0) (awaiting engineData) 6 = .ok l ∧
      l.calls = [.displayInit, .displayUpdate, .waitTick 1, .waitTick 1, .displayUpdate,
        .waitTick 1] ∧
      ∃ m ≤ 6, ∀ k ≤ 6, ∃ lk, coroutineEntry promptly (fun _ => zeros) (fun k => k % 2 == 0)
          (awaiting engineData) k = .ok lk ∧
        (lk.running = true ↔ k ≤ m) ∧ lk.calls = callsOf (fun k => k % 2 == 0) (min k m) := by
  have hok : ((coroutineEntry promptly (fun _ => zeros) (fun k => k % 2 == 0)
      (awaiting engineData) 6).toOption.map fun l => l.calls) = some [.displayInit, .displayUpdate,
        .waitTick 1, .waitTick 1, .displayUpdate, .waitTick 1] := by
    decide +kernel
  cases hl : coroutineEntry promptly (fun _ => zeros) (fun k => k % 2 == 0)
      (awaiting engineData) 6 with
  | error e =>
    rw [hl] at hok
    cases hok
  | ok l =>
    rw [hl] at hok
    refine ⟨l, rfl, Option.some.inj hok, ?_⟩
    rcases @calls_ordered promptly (fun _ => zeros) (fun k => k % 2 == 0) (awaiting engineData)
      ⟨rfl, Nat.zero_le _⟩ 6 with h | ⟨e, he, -⟩
    · exact h
    · rw [hl] at he
      cases he

/-! ### The first round -/

/-- The lines the coroutine has sent. -/
def sentLines (s : State) : List (List Byte) :=
  s.trace.filterMap fun
    | .sendline str => some str
    | _ => none

lemma sentLines_sendline (str : List Byte) (s : State) :
    sentLines (uartSendline str s).2 = sentLines s ++ [str] := by
  simp [sentLines, uartSendline]

lemma sentLines_readline {sync : Bool} {bufsz : ℕ} {q : ℤ × Option (List Byte) × State}
    (h : readline env sync bufsz fuel s = some q) :
    sentLines q.2.2 = sentLines s ∧ q.2.2.obd2State = s.obd2State := by
  simp only [readline, Option.map_eq_some_iff] at h
  obtain ⟨r, -, rfl⟩ := h
  refine ⟨?_, rfl⟩
  unfold sentLines
  dsimp only
  split_ifs <;> simp

lemma sentLines_sendAll {cmds : List (List Byte)} (h : sendAll env fuel cmds s = some s') :
    sentLines s' = sentLines s ++ cmds := by
  induction cmds generalizing s with
  | nil =>
    cases h
    simp
  | cons cmd cmds ih =>
    obtain ⟨b, s₁, hc, hrest⟩ := sendAll_cons h
    rw [obd2AtCommand_eq, Option.map_eq_some_iff] at hc
    obtain ⟨q, hr, hs⟩ := hc
    cases hs
    rw [ih hrest, (sentLines_readline hr).1, sentLines_sendline, List.append_assoc]
    rfl

lemma obd2StateExit_ends {response : List Byte} (hq : s.obd2State = .cilbr)
    (hload : s.data.displayParams.load ≤ 1 / 10) :
    (∃ s', obd2StateExit response s = .ok s' ∧ s'.obd2State = .reset) ∨
      ∃ e, obd2StateExit response s = .error e ∧ Leaves e := by
  have hne : s.obd2State ≠ .reset := by rw [hq]; decide
  cases hparse : obd2ParsePidResponse response s.data with
  | error e =>
    refine Or.inr ⟨e, ?_, leaves_of_parse hparse⟩
    simp [obd2StateExit, hne, hparse, bind, Except.bind]
  | ok r =>
    obtain ⟨ok, d⟩ := r
    left
    cases ok with
    | true =>
      refine ⟨_, exit_parsed hne hparse, ?_⟩
      have hd : d.displayParams.load ≤ 1 / 10 := by
        rw [(blind_of_parse hparse).displayParams]
        exact hload
      simp only [nextState, noted, hq]
      rw [if_pos hd]
    | false => exact exit_failed hparse

/-- **The first call of `obd2_update` ends the loop**: whatever it receives, it says to stop
and has sent nothing, or the decoder leaves its data. -/
lemma obd2Update_ends (hport : Quiet s.port) (hq : s.obd2State = .cilbr)
    (hload : s.data.displayParams.load ≤ 1 / 10) :
    (∃ s', obd2Update env junk s = .ok (false, s') ∧ sentLines s' = sentLines s) ∨
      ∃ e, obd2Update env junk s = .error e ∧ Leaves e := by
  obtain ⟨⟨rc, str, s₁⟩, hread⟩ := readline_returns env hport
  obtain ⟨hsent, hq₁⟩ := sentLines_readline hread
  have hdata : s₁.data = s.data := readline_data hread
  unfold obd2Update
  simp only [hread]
  by_cases hrc : 0 ≤ rc
  · rw [if_pos hrc]
    have hload₁ : s₁.data.displayParams.load ≤ 1 / 10 := by rw [hdata]; exact hload
    have hexit := @obd2StateExit_ends s₁ (str.getD junk) (hq₁.trans hq) hload₁
    rcases hexit with ⟨s₂, he, hreset⟩ | ⟨e, he, hleaves⟩
    · left
      rw [he]
      refine ⟨obd2StateEntry s₂, ?_, ?_⟩
      · simp [bind, Except.bind, pure, Except.pure, hreset]
      · have htrace := (obd2StateExit_exits he).trace
        rw [obd2StateEntry_eq, ← hsent]
        unfold sentLines
        simp [htrace, hreset, sent, requestOf]
    · right
      rw [he]
      exact ⟨e, rfl, hleaves⟩
  · rw [if_neg hrc]
    exact Or.inl ⟨s₁, rfl, hsent⟩

/-! ### `main` -/

/-- The loop has ended without a call, after one request. -/
structure Ended (l : Loop) : Prop where
  running : l.running = false
  calls : l.calls = []
  sent : sentLines l.obd2 = atCommands ++ [ascii "01 05 0f 04 33\r"]

lemma started (hinit : obd2Init env fuel atStart = some s₀) :
    s₀.data.displayParams.load ≤ 1 / 10 ∧
      sentLines s₀ = atCommands ++ [ascii "01 05 0f 04 33\r"] := by
  unfold obd2Init at hinit
  rw [Option.map_eq_some_iff] at hinit
  obtain ⟨s₁, hall, rfl⟩ := hinit
  have hunread : Unread (obd2Clear atStart).data s₁ :=
    Unread.sendAll ⟨rfl, rfl, fun _ => Or.inl rfl⟩ hall
  have hsent := sentLines_sendAll hall
  constructor
  · rw [obd2StateEntry_data, hunread.displayParams]
    show (0 : ℚ) ≤ 1 / 10
    norm_num
  · rw [obd2StateEntry_eq]
    unfold sentLines at hsent ⊢
    simp [hsent, obd2Clear, atStart, sent, requestOf]

/-- **The gauge never shows anything**: from power-up, whatever the adapter answers and
however fast, `coroutine_entry` ends in its first round without a call to the display and
after a single request, or the decoder leaves its data in that round; and `rc_reset`, with
which `shutdown` ends, does not bring the processor up again. -/
theorem main_ends (hinit : obd2Init env fuel atStart = some s₀) (n : ℕ) :
    ((∃ l, coroutineEntry env junks isFrame s₀ (n + 1) = .ok l ∧ Ended l) ∨
      ∃ e, coroutineEntry env junks isFrame s₀ (n + 1) = .error e ∧ Leaves e) ∧
    ∀ b : SelfReset.Board, b.Idle → ∀ t, (SelfReset.run resetTicks b t).rc1Reset = false := by
  obtain ⟨hport, hq⟩ := obd2Init_spec (d := atStart.data) hinit
  obtain ⟨hload, hsent⟩ := started hinit
  refine ⟨?_, fun b hb t => SelfReset.rc1Reset_never hb (by decide) (by decide) t⟩
  induction n with
  | zero =>
    rw [coroutineEntry]
    simp only [coroutineEntry, bind, Except.bind, if_true, Coroutine.round]
    obtain ⟨s', hu, hs'⟩ | ⟨e, hu, he⟩ := @obd2Update_ends env (junks 0) _ hport hq hload
    · rw [hu]
      exact Or.inl ⟨_, rfl, rfl, rfl, hs'.trans hsent⟩
    · rw [hu]
      exact Or.inr ⟨e, rfl, he⟩
  | succ n ih =>
    rw [coroutineEntry]
    rcases ih with ⟨l, hl, hend⟩ | ⟨e, hl, he⟩
    · rw [hl]
      refine Or.inl ⟨l, ?_, hend⟩
      simp [bind, Except.bind, hend.running, pure, Except.pure]
    · rw [hl]
      exact Or.inr ⟨e, rfl, he⟩

theorem main_ends_promptly : ∃ l, coroutineEntry promptly (fun _ => zeros) (fun _ => true)
    (awaiting atStart.data) 1 = .ok l ∧ Ended l := by
  have hok : (coroutineEntry promptly (fun _ => zeros) (fun _ => true)
      (awaiting atStart.data) 1).isOk = true := by
    decide +kernel
  have hinit : obd2Init promptly 5 atStart = some (awaiting atStart.data) := rfl
  obtain ⟨h | ⟨e, he, -⟩, -⟩ := @main_ends _ _ (fun _ => zeros) (fun _ => true) _ hinit 0
  · exact h
  · rw [he] at hok
    cases hok

end Blastit.Fw.MainLoop
