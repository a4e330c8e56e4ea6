import Blastit.Fw.Obd2
import Blastit.Fw.PidBounds

/-!
What can become of a call of `obd2_update`: it returns, or the decoder leaves its data.

`uart_readline` is called with `UART_FLAG_NONE`, so it does not wait; and of the rest only
`obd2_parse_pid_response` can fail.
-/

namespace Blastit.Fw.Obd2

open Blastit.Lib.Text Blastit.Lib.Calls Blastit.Fw.Line Blastit.Fw.PidParser
open Blastit.Fw.Uart hiding State

variable {env : ℕ → Poll} {fuel n : ℕ} {junk : List Byte} {junks : ℕ → List Byte}
  {s s' s₀ : State} {b : Bool}

lemma leaves_of_obd2StateExit {response : List Byte} {e : Uart.Fault}
    (h : obd2StateExit response s = .error e) : Leaves e := by
  unfold obd2StateExit at h
  dsimp only at h
  split_ifs at h
  · cases h
  · cases hparse : obd2ParsePidResponse response s.data with
    | error e' =>
      rw [hparse] at h
      cases h
      exact leaves_of_parse hparse
    | ok r =>
      rw [hparse] at h
      cases h

/-! ### Between two calls -/

lemma quiet_readline {sync : Bool} {bufsz : ℕ} {q : ℤ × Option (List Byte) × State}
    (hq : Quiet s.port) (h : readline env sync bufsz fuel s = some q) : Quiet q.2.2.port := by
  simp only [readline, Option.map_eq_some_iff] at h
  obtain ⟨r, hr, rfl⟩ := h
  exact (uartReadline_ending hq.eol hq.room hr).quiet

lemma quiet_obd2AtCommand {command : List Byte} (hq : Quiet s.port)
    (h : obd2AtCommand env fuel command s = some (b, s')) : Quiet s'.port := by
  rw [obd2AtCommand_eq, Option.map_eq_some_iff] at h
  obtain ⟨q, hr, hs⟩ := h
  cases hs
  exact quiet_readline (s := (uartSendline command s).2) hq hr

lemma obd2Init_spec {d : Data} (h : obd2Init env fuel { atStart with data := d } = some s₀) :
    Quiet s₀.port ∧ s₀.obd2State = .cilbr := by
  unfold obd2Init at h
  rw [Option.map_eq_some_iff] at h
  obtain ⟨s₁, hall, rfl⟩ := h
  have hquiet : Quiet s₁.port :=
    sendAll_inv (fun _ _ _ _ hq hc => quiet_obd2AtCommand hq hc) ⟨rfl, Nat.zero_le _⟩ hall
  rw [obd2StateEntry_eq]
  exact ⟨hquiet, rfl⟩

lemma readline_returns (env : ℕ → Poll) (hq : Quiet s.port) :
    ∃ q, readline env false obd2PidMaxN lineFuel s = some q := by
  have hsome : (uartReadline env false obd2PidMaxN lineFuel s.port).isSome = true :=
    uartReadline_isSome hq
  obtain ⟨r, hr⟩ := Option.isSome_iff_exists.mp hsome
  exact ⟨_, by rw [readline, hr]; rfl⟩

/-- **A call of `obd2_update` returns**, between two calls again, or the decoder leaves its
data. -/
lemma obd2Update_returns (env : ℕ → Poll) (junk : List Byte) (hq : Quiet s.port) :
    (∃ b s', obd2Update env junk s = .ok (b, s') ∧ Quiet s'.port) ∨
      ∃ e, obd2Update env junk s = .error e ∧ Leaves e := by
  obtain ⟨⟨rc, str, s₁⟩, hread⟩ := readline_returns env hq
  have hq₁ : Quiet s₁.port := quiet_readline hq hread
  unfold obd2Update
  simp only [hread]
  by_cases hrc : 0 ≤ rc
  · rw [if_pos hrc]
    cases hexit : obd2StateExit (str.getD junk) s₁ with
    | ok s₂ =>
      refine .inl ⟨_, _, rfl, ?_⟩
      rw [obd2StateEntry_eq]
      show Quiet s₂.port
      rwa [(obd2StateExit_exits hexit).port]
    | error e => exact .inr ⟨e, rfl, leaves_of_obd2StateExit hexit⟩
  · rw [if_neg hrc]
    exact .inl ⟨_, _, rfl, hq₁⟩

lemma run_returns (hq : Quiet s₀.port) (n : ℕ) :
    (∃ s, run env junks s₀ n = .ok s ∧ Quiet s.port) ∨
      ∃ e, run env junks s₀ n = .error e ∧ Leaves e := by
  induction n with
  | zero => exact .inl ⟨s₀, rfl, hq⟩
  | succ n ih =>
    rw [run]
    rcases ih with ⟨s, hs, hq'⟩ | ⟨e, hs, he⟩
    · rw [hs]
      rcases obd2Update_returns env (junks n) hq' with ⟨b, s', hu, hquiet⟩ | ⟨e, hu, he⟩
      · exact .inl ⟨s', by dsimp only [bind, Except.bind]; rw [hu]; rfl, hquiet⟩
      · exact .inr ⟨e, by dsimp only [bind, Except.bind]; rw [hu], he⟩
    · rw [hs]
      exact .inr ⟨e, rfl, he⟩

end Blastit.Fw.Obd2
