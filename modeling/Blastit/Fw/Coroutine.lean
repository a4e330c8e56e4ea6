import Blastit.Fw.Obd2Polling
import Blastit.Fw.Obd2Returns

/-!
`coroutine_entry`: the loop that calls `obd2_update` until it returns false.

A round updates the OBD2 coroutine, draws a frame if one is due and waits for a tick. A call
of `obd2_update` that finds the receiver empty within a reply returns false like one that
has failed, and one that finds nothing at all takes what its buffer holds for the reply. So
the loop survives a reply only if its bytes are there as fast as they are read, from the
first poll on.
-/

namespace Blastit.Fw.Coroutine

open Blastit.Lib.Text Blastit.Lib.Calls Blastit.Lib.Clocked
open Blastit.Fw.Uart hiding State
open Blastit.Fw.Line Blastit.Fw.Obd2 Blastit.Fw.PidParser

/-! ### The loop -/

/-- What the loop calls besides `obd2_update`. -/
inductive Call
  | displayInit
  | displayUpdate
  | waitTick (ticks : BitVec 32)
  deriving DecidableEq, Repr

/-- The coroutine, the variable of the loop, its calls so far, and whether it goes on. -/
structure Loop where
  obd2 : State
  displayInitialized : Bool
  calls : List Call
  running : Bool

/-- `display_init`; of what the coroutine sees it clears the readings. -/
def displayInit (s : Loop) : Loop :=
  { s with
    obd2.data.displayParams := ⟨0, 0, 0, 0, 0, 0⟩
    calls := s.calls ++ [.displayInit] }

/-- `display_update` only reads the readings. -/
def displayUpdate (s : Loop) : Loop := { s with calls := s.calls ++ [.displayUpdate] }

def waitTick (ticks : BitVec 32) (s : Loop) : Loop :=
  { s with calls := s.calls ++ [.waitTick ticks] }

/-- What the loop does for the display; `isFrame` is what `is_frame` returns. -/
def display (isFrame : Bool) (s : Loop) : Loop :=
  if s.obd2.obd2State ≠ .reset then
    let s :=
      if !s.displayInitialized then displayInit { s with displayInitialized := true } else s
    if isFrame then displayUpdate s else s
  else s

/-- One round of `coroutine_entry`. -/
def round (env : ℕ → Poll) (junk : List Byte) (isFrame : Bool) (s : Loop) : Except Fault Loop := do
  let (running, o) ← obd2Update env junk s.obd2
  let s := { s with obd2 := o }
  if !running then return { s with running := false }
  else return waitTick 1 (display isFrame s)

/-- `coroutine_entry` after `n` rounds. -/
def coroutineEntry (env : ℕ → Poll) (junk : ℕ → List Byte) (isFrame : ℕ → Bool) (o : State) :
    ℕ → Except Fault Loop
  | 0 => .ok ⟨o, false, [], true⟩
  | n + 1 => do
    let s ← coroutineEntry env junk isFrame o n
    if s.running then round env (junk n) (isFrame n) s else return s

/-- Call number `n` of `obd2_update`: the loop before it, how its `uart_readline` ends, what it
returns and the state after it. -/
structure CallAt (env : ℕ → Poll) (junk : ℕ → List Byte) (isFrame : ℕ → Bool) (o : State) (n : ℕ)
    (l : Loop) (r : Result) (running : Bool) (s' : State) : Prop where
  before : coroutineEntry env junk isFrame o n = .ok l
  runs : l.running = true
  read : uartReadline env false obd2PidMaxN lineFuel l.obd2.port = some r
  update : obd2Update env (junk n) l.obd2 = .ok (running, s')

/-- The call has received a part of a reply, or nothing of it yet: no line is complete, and the
timeout has not expired. -/
def PartReceived (r : Result) : Prop := r.str = none ∧ r.rc ≠ uartErrorTimeout

/-- The call ends the loop only for a reason, and not while a reply is coming in. -/
structure Survives (s : State) (r : Result) (running : Bool) (s' : State) : Prop where
  stops : running = false →
    s'.obd2State = .reset ∨ (r.rc < 0 ∧ r.rc ≠ uartErrorRxBusy)
  waits : PartReceived r → s'.obd2State = s.obd2State ∧ running = true

/-! ### A reply that does not come fast enough -/

/-- Status read `j` of a call is the first to find the receiver empty, if every byte found
before is read. -/
structure FirstEmpty (env : ℕ → Poll) (p : Port) (j : ℕ) : Prop where
  found : ∀ i < j, i < (p.available env (i + 1)).length
  empty : (p.available env (j + 1)).length ≤ j

/-- At that read no line is complete, and the timeout has not expired. -/
structure StarvedAt (env : ℕ → Poll) (p : Port) (j : ℕ) : Prop where
  first : FirstEmpty env p j
  part : Open p.uart (p.available env (j + 1))
  time : ¬ p.uart.uartRxTimeout < (env (p.now + j)).ticks

def Starved (env : ℕ → Poll) (p : Port) : Prop := ∃ j, StarvedAt env p j

/-- A poll that finds nothing is taken for a reply that leaves the state as it is: in `BA`, with
the count below its bound, what the buffer happens to hold is parsed. -/
structure Overlooked (env : ℕ → Poll) (junk : List Byte) (s : State) : Prop where
  empty : s.port.available env 1 = []
  state : s.obd2State = .ba
  count : s.baCount < baModuloN
  parses : ∃ d, obd2ParsePidResponse junk s.data = .ok (true, d)

variable {env : ℕ → Poll} {p p' : Port} {taken : List Byte} {bufsz i j m : ℕ} {r : Result}

lemma available_initial (h : i ≤ j) : p.available env i <+: p.available env j :=
  (List.prefix_append_right_inj _).mpr (collect_initial _ h)

lemma FirstEmpty.unique (h : FirstEmpty env p i) (h' : FirstEmpty env p j) : i = j := by
  rcases Nat.lt_trichotomy i j with hlt | heq | hlt
  · exact absurd (h'.found i hlt) (Nat.not_lt.mpr h.empty)
  · exact heq
  · exact absurd (h.found j hlt) (Nat.not_lt.mpr h'.empty)

/-- A call that ends at an empty receiver has found a byte at each read before. -/
lemma firstEmpty_of_takes (h : Takes env false p taken (taken.length + 1) p') (hrx : p'.rx = []) :
    FirstEmpty env p taken.length ∧ p.available env (taken.length + 1) = taken := by
  have hbytes := h.bytes
  rw [hrx, List.append_nil] at hbytes
  exact ⟨⟨h.found rfl, by rw [hbytes]⟩, hbytes⟩

lemma Takes.length_le (h : Takes env false p taken m p') (hj : FirstEmpty env p j) :
    taken.length ≤ j := by
  by_contra hlt
  exact absurd (h.found rfl j (by omega)) (Nat.not_lt.mpr hj.empty)

lemma Takes.initial (h : Takes env false p taken m p') (hj : taken.length ≤ j) :
    taken <+: p.available env (j + 1) := by
  cases ht : taken.length with
  | zero =>
    rw [List.length_eq_zero_iff.mp ht]
    exact List.nil_prefix
  | succ i =>
    have hlen := h.found rfl i (by omega)
    have hall : taken <+: p.available env (max m (i + 1)) :=
      List.IsPrefix.trans ⟨_, h.bytes.symm⟩ (available_initial (Nat.le_max_left _ _))
    have hi : taken <+: p.available env (i + 1) :=
      List.prefix_of_prefix_length_le hall (available_initial (Nat.le_max_right _ _)) (by omega)
    exact hi.trans (available_initial (by omega))

/-- **The call is left with part of a reply exactly if the reply does not come fast enough.** -/
lemma starved_iff (h : Ending env false bufsz p r) : Starved env p ↔ PartReceived r := by
  constructor
  · rintro ⟨j, hfirst, hpart, htime⟩
    cases h with
    | @line taken m p' ht hline hreads hu =>
      exfalso
      have hle := Takes.length_le ht hfirst
      rcases hline with ⟨t, htaken, -, -⟩ | ⟨-, hlen, hrx⟩
      · refine hpart.1 ((Takes.initial ht hle).subset ?_)
        rw [htaken]
        simp
      · -- the byte that showed the buffer to be full was there as well
        have hm : m ≤ j + 1 := by
          have := hreads rfl
          omega
        have hmore : p.available env m <+: p.available env (j + 1) := available_initial hm
        have hlonger := hmore.length_le
        have hroom := hpart.2
        have hpos := List.length_pos_iff.mpr hrx
        rw [ht.bytes, List.length_append] at hlonger
        rw [List.length_append] at hroom hlen
        omega
    | timeout ht hopen hrx hexp hreads hu =>
      exfalso
      have hm := hreads rfl
      subst hm
      obtain ⟨hfirst', -⟩ := firstEmpty_of_takes ht hrx
      rw [hfirst.unique hfirst'] at htime
      exact htime hexp
    | idle _ ht hopen hrx hexp hu =>
      refine ⟨rfl, ?_⟩
      split <;> simp [uartReady, uartErrorRxBusy, uartErrorTimeout]
  · rintro ⟨hstr, hrc⟩
    cases h with
    | line ht hline hreads hu => cases hstr
    | timeout ht hopen hrx hexp hreads hu => exact absurd rfl hrc
    | idle _ ht hopen hrx hexp hu =>
      obtain ⟨hfirst, hbytes⟩ := firstEmpty_of_takes ht hrx
      exact ⟨_, hfirst, by rwa [hbytes], hexp⟩

/-- Of a call that is left so: it has read something and is busy, or has found nothing. -/
lemma idle_of_starved (h : Ending env false bufsz p r) (hs : Starved env p) :
    r.str = none ∧ ((r.rc = uartErrorRxBusy ∧ p.available env 1 ≠ []) ∨
      (r.rc = uartReady ∧ p.available env 1 = [])) := by
  obtain ⟨hstr, hrc⟩ := (starved_iff h).mp hs
  refine ⟨hstr, ?_⟩
  cases h with
  | line ht hline hreads hu => cases hstr
  | timeout ht hopen hrx hexp hreads hu => exact absurd rfl hrc
  | @idle taken p' _ ht hopen hrx hexp hu =>
    by_cases htaken : taken = []
    · subst htaken
      exact .inr ⟨rfl, (firstEmpty_of_takes ht hrx).2⟩
    · refine .inl ⟨if_neg htaken, fun hnone => ?_⟩
      have hlen := ht.found rfl 0 (List.length_pos_iff.mpr htaken)
      rw [hnone] at hlen
      exact absurd hlen (Nat.lt_irrefl 0)

/-! ### One call -/

variable {s s' : State} {junk : List Byte} {running : Bool}

lemma nextState_same (h : (nextState s).obd2State = s.obd2State) (hq : s.obd2State ≠ .reset) :
    s.obd2State = .ba ∧ s.baCount < baModuloN := by
  unfold nextState at h
  split at h
  · next hc => split_ifs at h <;> cases h.trans hc
  · next hc => cases h.trans hc
  · next hc =>
    split_ifs at h with hlt
    · exact ⟨hc, hlt⟩
    · cases h.trans hc
  · next hc => exact absurd hc hq

lemma obd2Update_cases (hr : uartReadline env false obd2PidMaxN lineFuel s.port = some r)
    (h : obd2Update env junk s = .ok (running, s')) :
    s'.port = r.port ∧
      ((r.rc < 0 ∧ running = false) ∨
        (0 ≤ r.rc ∧ running = decide (s'.obd2State ≠ .reset) ∧ ∃ s₁ s₂ : State,
          obd2StateExit (r.str.getD junk) s₁ = .ok s₂ ∧ s₁.obd2State = s.obd2State ∧
          s₁.baCount = s.baCount ∧ s₁.data = s.data ∧ s'.obd2State = s₂.obd2State)) := by
  simp only [obd2Update, readline, hr, Option.map_some] at h
  by_cases hrc : 0 ≤ r.rc
  · rw [if_pos hrc] at h
    obtain ⟨s₂, he, hs⟩ := bind_eq_ok.mp h
    cases hs
    have hport := (obd2StateExit_exits he).port
    rw [obd2StateEntry_eq]
    exact ⟨hport, .inr ⟨hrc, rfl, _, s₂, he, rfl, rfl, rfl, rfl⟩⟩
  · rw [if_neg hrc] at h
    cases h
    exact ⟨rfl, .inl ⟨by omega, rfl⟩⟩

lemma survives_of_not_starved (hend : Ending env false obd2PidMaxN s.port r)
    (hr : uartReadline env false obd2PidMaxN lineFuel s.port = some r)
    (h : obd2Update env junk s = .ok (running, s')) (hstarved : ¬ Starved env s.port) :
    Survives s r running s' := by
  rw [starved_iff hend] at hstarved
  refine ⟨fun hstop => ?_, fun hpart => absurd hpart hstarved⟩
  obtain ⟨-, ⟨hneg, -⟩ | ⟨-, hrun, -⟩⟩ := obd2Update_cases hr h
  · refine .inr ⟨hneg, fun hbusy => hstarved ?_⟩
    cases hend with
    | line => exact absurd hneg (Int.not_lt.mpr (Int.natCast_nonneg _))
    | timeout => cases hbusy
    | idle =>
      refine ⟨rfl, fun hout => ?_⟩
      rw [hbusy] at hout
      cases hout
  · rw [hstop] at hrun
    exact .inl (by simpa using hrun.symm)

lemma survives_of_overlooked (hend : Ending env false obd2PidMaxN s.port r)
    (hr : uartReadline env false obd2PidMaxN lineFuel s.port = some r)
    (h : obd2Update env junk s = .ok (running, s')) (hstarved : Starved env s.port)
    (ho : Overlooked env junk s) : Survives s r running s' := by
  obtain ⟨hempty, hba, hcount, d, hparse⟩ := ho
  obtain ⟨hstr, ⟨-, hsome⟩ | ⟨hrc, -⟩⟩ := idle_of_starved hend hstarved
  · exact absurd hempty hsome
  obtain ⟨-, ⟨hneg, -⟩ | ⟨-, hrun, s₁, s₂, hexit, hq₁, hc₁, hd₁, hq₂⟩⟩ := obd2Update_cases hr h
  · rw [hrc] at hneg
    cases hneg
  have hne : s₁.obd2State ≠ .reset := by
    rw [hq₁, hba]
    decide
  rw [hstr, Option.getD_none, exit_parsed hne (hd₁ ▸ hparse)] at hexit
  cases hexit
  have hsame : s'.obd2State = .ba := by
    rw [hq₂, nextState_ba (s := { noted junk s₁ with data := d }) (hq₁.trans hba)
      (hc₁ ▸ hcount)]
  have hgo : running = true := by simp [hrun, hsame]
  exact ⟨fun hstop => by simp [hgo] at hstop, fun _ => ⟨hsame.trans hba.symm, hgo⟩⟩

/-- A starved call that reads something ends the loop; one that reads nothing changes the state,
unless it is overlooked. -/
lemma overlooked_of_survives (hend : Ending env false obd2PidMaxN s.port r)
    (hr : uartReadline env false obd2PidMaxN lineFuel s.port = some r)
    (h : obd2Update env junk s = .ok (running, s')) (hstarved : Starved env s.port)
    (hs : Survives s r running s') : Overlooked env junk s := by
  obtain ⟨hstate, hgo⟩ := hs.waits ((starved_iff hend).mp hstarved)
  obtain ⟨hstr, hread⟩ := idle_of_starved hend hstarved
  obtain ⟨-, ⟨-, hstop⟩ | ⟨hpos, hrun, s₁, s₂, hexit, hq₁, hc₁, hd₁, hq₂⟩⟩ := obd2Update_cases hr h
  · rw [hgo] at hstop
    cases hstop
  obtain ⟨hrc, -⟩ | ⟨-, hempty⟩ := hread
  · rw [hrc] at hpos
    exact absurd hpos (by decide)
  have hne : s'.obd2State ≠ .reset := by simpa [hgo] using hrun
  rw [hstr, Option.getD_none] at hexit
  obtain ⟨hreset, -⟩ | ⟨hq, d, ⟨hparse, rfl⟩ | ⟨-, rfl⟩⟩ := obd2StateExit_cases hexit
  · exact absurd (hstate.trans (hq₁.symm.trans hreset)) hne
  · have hkeeps : (nextState { noted junk s₁ with data := d }).obd2State = s₁.obd2State :=
      hq₂.symm.trans (hstate.trans hq₁.symm)
    obtain ⟨hba, hcount⟩ := nextState_same (s := { noted junk s₁ with data := d }) hkeeps hq
    exact ⟨hempty, hq₁ ▸ hba, hc₁ ▸ hcount, d, hd₁ ▸ hparse⟩
  · exact absurd hq₂ hne

/-- **The loop survives a call exactly if it is not starved**, or the empty poll overlooked. -/
lemma survives_call_iff (hq : Quiet s.port)
    (hr : uartReadline env false obd2PidMaxN lineFuel s.port = some r)
    (h : obd2Update env junk s = .ok (running, s')) :
    Survives s r running s' ↔ (Starved env s.port → Overlooked env junk s) := by
  have hend := uartReadline_ending hq.eol hq.room hr
  constructor
  · exact fun hs hstarved => overlooked_of_survives hend hr h hstarved hs
  · intro hov
    by_cases hstarved : Starved env s.port
    · exact survives_of_overlooked hend hr h hstarved (hov hstarved)
    · exact survives_of_not_starved hend hr h hstarved

/-! ### Runs -/

variable {junks : ℕ → List Byte} {isFrame : ℕ → Bool} {o s₀ : State} {l l' : Loop} {n fuel : ℕ}

lemma display_port (b : Bool) (l : Loop) : (display b l).obd2.port = l.obd2.port := by
  unfold display
  split_ifs <;> rfl

/-- A call of `obd2_update` reads the line or waits for ever. -/
lemma exists_read (hu : obd2Update env junk s = .ok (running, s')) :
    ∃ r, uartReadline env false obd2PidMaxN lineFuel s.port = some r := by
  cases hr : uartReadline env false obd2PidMaxN lineFuel s.port with
  | none => simp [obd2Update, readline, hr] at hu
  | some r => exact ⟨r, rfl⟩

lemma quiet_update (hq : Quiet s.port) (hu : obd2Update env junk s = .ok (running, s')) :
    Quiet s'.port := by
  obtain ⟨r, hr⟩ := exists_read hu
  rw [(obd2Update_cases hr hu).1]
  exact (uartReadline_ending hq.eol hq.room hr).quiet

lemma quiet_round {b : Bool} (hq : Quiet l.obd2.port) (h : round env junk b l = .ok l') :
    Quiet l'.obd2.port := by
  obtain ⟨⟨running, o'⟩, hu, hs⟩ := bind_eq_ok.mp h
  have hq' := quiet_update hq hu
  cases running with
  | false =>
    cases hs
    exact hq'
  | true =>
    cases hs
    show Quiet (display b { l with obd2 := o' }).obd2.port
    rwa [display_port]

lemma quiet_coroutineEntry (h₀ : Quiet o.port)
    (h : coroutineEntry env junks isFrame o n = .ok l) : Quiet l.obd2.port := by
  induction n generalizing l with
  | zero =>
    cases h
    exact h₀
  | succ n ih =>
    obtain ⟨l₁, hn, hrest⟩ := bind_eq_ok.mp h
    split_ifs at hrest
    · exact quiet_round (ih hn) hrest
    · cases hrest
      exact ih hn

/-! ### A run -/

/-- **The main loop survives slow replies exactly if there are none**: over a run from
`obd2_init` no call ends the loop without a reason or while a reply is coming in if and only
if none finds the receiver empty before a line is complete and before the timeout has
expired, except for polls that are overlooked. -/
theorem survives_iff {d : Data}
    (hinit : obd2Init env fuel { atStart with data := d } = some s₀) :
    (∀ n l r running s', CallAt env junks isFrame s₀ n l r running s' →
        Survives l.obd2 r running s') ↔
      ∀ n l r running s', CallAt env junks isFrame s₀ n l r running s' →
        Starved env l.obd2.port → Overlooked env (junks n) l.obd2 := by
  obtain ⟨h₀, -⟩ := obd2Init_spec hinit
  have hcall : ∀ {n l r running s'}, CallAt env junks isFrame s₀ n l r running s' →
      (Survives l.obd2 r running s' ↔
        (Starved env l.obd2.port → Overlooked env (junks n) l.obd2)) :=
    fun hc => survives_call_iff (quiet_coroutineEntry h₀ hc.before) hc.read hc.update
  constructor
  · exact fun hall n l r running s' hc => (hcall hc).mp (hall n l r running s' hc)
  · exact fun hall n l r running s' hc => (hcall hc).mpr (hall n l r running s' hc)

lemma not_starved (h : p.uart.uartEol ∈ p.available env 1) : ¬ Starved env p := by
  rintro ⟨j, -, hpart, -⟩
  exact hpart.1 ((available_initial (by omega)).subset h)

lemma coroutineEntry_ended (h : coroutineEntry env junks isFrame o n = .ok l)
    (hl : l.running = false) (k : ℕ) : coroutineEntry env junks isFrame o (n + k) = .ok l := by
  induction k with
  | zero => exact h
  | succ k ih =>
    rw [← Nat.add_assoc, coroutineEntry, ih]
    simp [bind, Except.bind, hl, pure, Except.pure]

/-- The coroutine after `obd2_init`, when the adapter has answered its three commands. -/
def awaiting (d : Data) : State where
  port := ⟨{ opened with uartEol := 0x3e }, [], 3⟩
  obd2State := .cilbr
  data := { d with pids := noPids, boostRef := 0 }
  baCount := 0
  trace := atCommands.map .sendline ++ .entry .cilbr :: sent .cilbr

/-- The adapter answers the three commands, and every request in one go: three times it has
no data, and then it refuses. -/
def promptly : ℕ → Poll
  | 0 => ⟨ascii ">>>", 0⟩
  | 3 => ⟨ascii "NO DATA\r\r>NO DATA\r\r>NO DATA\r\r>?>", 0⟩
  | _ => ⟨[], 0⟩

/-- The loop on these replies, with the engine on. -/
def promptLoop (n : ℕ) : Except Fault Loop :=
  coroutineEntry promptly (fun _ => zeros) (fun _ => true) (awaiting engineData) n

lemma promptLoop_runs :
    ((List.range 4).all fun n => ((promptLoop n).toOption.map fun l =>
      decide (l.running = true ∧ l.obd2.port.uart.uartEol ∈ l.obd2.port.available promptly 1)) ==
        some true) = true ∧
    ((promptLoop 4).toOption.map fun l => l.running) = some false := by
  constructor <;> decide +kernel

lemma promptLoop_call {n : ℕ} {l : Loop} (h : promptLoop n = .ok l) (hl : l.running = true) :
    ¬ Starved promptly l.obd2.port := by
  obtain ⟨hall, hend⟩ := promptLoop_runs
  by_cases hn : n < 4
  · have hread := List.all_eq_true.mp hall n (List.mem_range.mpr hn)
    rw [h] at hread
    simp only [Except.toOption, Option.map_some, beq_iff_eq, Option.some.injEq,
      decide_eq_true_eq] at hread
    exact not_starved hread.2
  · exfalso
    cases h₄ : promptLoop 4 with
    | error e => simp [h₄, Except.toOption] at hend
    | ok l₄ =>
      rw [h₄] at hend
      have hstop : l₄.running = false := Option.some.inj hend
      have hstay := coroutineEntry_ended h₄ hstop (n - 4)
      rw [Nat.add_sub_cancel' (by omega)] at hstay
      obtain rfl : l₄ = l := Except.ok.inj (hstay.symm.trans h)
      rw [hstop] at hl
      cases hl

theorem survives_promptly :
    obd2Init promptly 5 { atStart with data := engineData } = some (awaiting engineData) ∧
      (∃ l, promptLoop 3 = .ok l ∧ l.running = true) ∧
      ∀ n l r running s', CallAt promptly (fun _ => zeros) (fun _ => true) (awaiting engineData)
        n l r running s' → Survives l.obd2 r running s' := by
  have hinit : obd2Init promptly 5 { atStart with data := engineData } =
      some (awaiting engineData) := rfl
  refine ⟨hinit, ?_, (survives_iff hinit).mpr fun n l r running s' hc hstarved =>
    absurd hstarved (promptLoop_call hc.before hc.runs)⟩
  have hread := List.all_eq_true.mp promptLoop_runs.1 3 (by decide)
  cases h₃ : promptLoop 3 with
  | error e => simp [h₃, Except.toOption] at hread
  | ok l =>
    rw [h₃] at hread
    simp only [Except.toOption, Option.map_some, beq_iff_eq, Option.some.injEq,
      decide_eq_true_eq] at hread
    exact ⟨l, rfl, hread.1⟩

/-- The adapter answers the three commands, and sends the first byte of a reply. -/
def halfway : ℕ → Poll
  | 0 => ⟨ascii ">>>", 0⟩
  | 3 => ⟨ascii "4", 0⟩
  | _ => ⟨[], 0⟩

/-- The loop ends while the reply is coming in. -/
theorem not_survives_halfway :
    obd2Init halfway 5 { atStart with data := engineData } = some (awaiting engineData) ∧
      ∃ l r s', CallAt halfway (fun _ => zeros) (fun _ => true) (awaiting engineData) 0 l r
        false s' ∧ ¬ Survives l.obd2 r false s' := by
  refine ⟨rfl, _, _, _, ⟨rfl, rfl, rfl, rfl⟩, fun h => ?_⟩
  rcases h.stops rfl with hreset | ⟨-, hcode⟩
  · cases hreset
  · exact hcode rfl

end Blastit.Fw.Coroutine
