import Blastit.Fw.Obd2Returns

/-!
The conversation with the adapter, over a run of the coroutine.

Where every call of `obd2_update` finds a byte and none times out, the calls of
`obd2_state_exit` are the lines that have come in, each in the state that sent the last
request. In the reset state nothing is asked any more.
-/

namespace Blastit.Fw.Obd2

open Blastit.Lib.Text Blastit.Lib.Calls Blastit.Fw.Uart Blastit.Fw.Line Blastit.Fw.PidParser

/-! ### Conversations -/

structure Exchange where
  line : List Byte
  next : Obd2State
  deriving DecidableEq, Repr

/-- The reply the state machine is given for a line: what fits into its buffer, up to the
first NUL. -/
def reply (line : List Byte) : List Byte := cstr (line.take (obd2PidMaxN - 1))

lemma length_reply_lt (line : List Byte) : (reply line).length < obd2PidMaxN := by
  have hle : (reply line).length ≤ (line.take (obd2PidMaxN - 1)).length :=
    (List.takeWhile_prefix _).length_le
  rw [List.length_take] at hle
  exact lt_of_le_of_lt (hle.trans (min_le_left _ _)) (by decide)

/-- What a conversation that starts in `q` leaves in the trace. -/
def conversation : Obd2State → List Exchange → List Event
  | _, [] => []
  | q, e :: es =>
    .exit q (reply e.line) :: .entry e.next :: (sent e.next ++ conversation e.next es)

def stateAfter : Obd2State → List Exchange → Obd2State
  | q, [] => q
  | _, e :: es => stateAfter e.next es

/-- The reset state is not left. -/
def Settles : Obd2State → List Exchange → Prop
  | _, [] => True
  | q, e :: es => (q = .reset → e.next = .reset) ∧ Settles e.next es

def Event.isSendline : Event → Bool
  | .sendline _ => true
  | _ => false

def Event.isExit : Event → Bool
  | .exit _ _ => true
  | _ => false

def requests (s : State) : ℕ := (s.trace.drop atCommands.length).countP Event.isSendline

def replies (s : State) : ℕ := s.trace.countP Event.isExit

lemma conversation_append (q : Obd2State) (es fs : List Exchange) :
    conversation q (es ++ fs) = conversation q es ++ conversation (stateAfter q es) fs := by
  induction es generalizing q with
  | nil => rfl
  | cons e es ih => simp [conversation, stateAfter, ih]

lemma stateAfter_append (q : Obd2State) (es fs : List Exchange) :
    stateAfter q (es ++ fs) = stateAfter (stateAfter q es) fs := by
  induction es generalizing q with
  | nil => rfl
  | cons e es ih => simp [stateAfter, ih]

lemma settles_append (q : Obd2State) (es fs : List Exchange) :
    Settles q (es ++ fs) ↔ Settles q es ∧ Settles (stateAfter q es) fs := by
  induction es generalizing q with
  | nil => simp [Settles, stateAfter]
  | cons e es ih => simp [Settles, stateAfter, ih, and_assoc]

lemma countP_sent (q : Obd2State) :
    (sent q).countP Event.isSendline = if q = .reset then 0 else 1 := by
  cases q <;> rfl

lemma countP_exit_sent (q : Obd2State) : (sent q).countP Event.isExit = 0 := by
  cases q <;> rfl

lemma countP_exit_conversation (q : Obd2State) (es : List Exchange) :
    (conversation q es).countP Event.isExit = es.length := by
  induction es generalizing q with
  | nil => rfl
  | cons e es ih =>
    simp [conversation, List.countP_cons, Event.isExit, countP_exit_sent, ih]

lemma countP_sendline_conversation (q : Obd2State) (es : List Exchange) :
    (conversation q es).countP Event.isSendline = es.countP fun e => decide (e.next ≠ .reset) := by
  induction es generalizing q with
  | nil => rfl
  | cons e es ih =>
    simp only [conversation, List.countP_cons, List.countP_append, countP_sent, ih, Event.isSendline]
    by_cases hq : e.next = .reset
    · simp [hq]
    · simp [hq, Nat.add_comm]

/-- A conversation that has not come to the reset state never was in it. -/
lemma Settles.next_ne_reset {q : Obd2State} {es : List Exchange} (h : Settles q es)
    (hq : stateAfter q es ≠ .reset) : ∀ e ∈ es, e.next ≠ .reset := by
  have hstay : ∀ fs : List Exchange, Settles .reset fs → stateAfter .reset fs = .reset := by
    intro fs hfs
    induction fs with
    | nil => rfl
    | cons f fs ih =>
      obtain ⟨hf, hrest⟩ := hfs
      rw [hf rfl] at hrest
      simp only [stateAfter, hf rfl]
      exact ih hrest
  induction es generalizing q with
  | nil => simp
  | cons e es ih =>
    intro f hf
    rcases List.mem_cons.mp hf with rfl | hf
    · intro hreset
      have hrest := h.2
      rw [hreset] at hrest
      refine hq ?_
      simp only [stateAfter, hreset]
      exact hstay es hrest
    · exact ih h.2 hq f hf

/-! ### The invariant -/

/-- **The lockstep of requests and replies**: the lines received so far are the answers to
the three commands and the conversation since, and the trace is that conversation. -/
def Lockstep (env : ℕ → Poll) (s : State) : Prop :=
  ∃ (ats : List (List Byte)) (es : List Exchange),
    ats.length = atCommands.length ∧ (∀ l ∈ ats, IsLine 0x3e l) ∧
    (∀ e ∈ es, IsLine 0x3e e.line) ∧ Settles .cilbr es ∧
    Feeds env s.port (ats.flatten ++ es.flatMap Exchange.line ++ s.port.uart.rxBuf) ∧
    s.obd2State = stateAfter .cilbr es ∧
    s.trace = atCommands.map Event.sendline ++ (.entry .cilbr :: sent .cilbr) ++
      conversation .cilbr es

/-- Until the reset state is entered, one more request has been sent than replies have been
consumed; in it, no request follows the reply that led there. -/
def Counts (s : State) : Prop :=
  (s.obd2State ≠ .reset → requests s = replies s + 1) ∧
    (s.obd2State = .reset → requests s ≤ replies s)

def FindsByte (env : ℕ → Poll) (s : State) : Prop := (s.port.status env).rx ≠ []

/-- The invariant: the port is between two calls, `uart_eol` is `'>'`, and the conversation
is in step. -/
structure InStep (env : ℕ → Poll) (s : State) : Prop where
  between : Between s.port
  eol : s.port.uart.uartEol = 0x3e
  lockstep : Lockstep env s

section
variable {env : ℕ → Poll} {s s' : State}

lemma countP_sendline_atCommands : (atCommands.map Event.sendline).countP Event.isExit = 0 := rfl

lemma Lockstep.counts (h : Lockstep env s) : Counts s := by
  obtain ⟨ats, es, -, -, -, hset, -, hq, htrace⟩ := h
  have hreq : requests s = 1 + es.countP fun e => decide (e.next ≠ .reset) := by
    unfold requests
    rw [htrace, List.append_assoc, List.drop_left' (by simp), List.countP_append, List.countP_cons,
      countP_sent, countP_sendline_conversation]
    rfl
  have hrep : replies s = es.length := by
    unfold replies
    rw [htrace, List.countP_append, List.countP_append, countP_sendline_atCommands,
      List.countP_cons, countP_exit_sent, countP_exit_conversation]
    simp [Event.isExit]
  rw [Counts, hreq, hrep, hq]
  constructor
  · intro hne
    rw [List.countP_eq_length.mpr fun e he => by simpa using hset.next_ne_reset hne e he, add_comm]
  · intro hreset
    -- some reply has led to the reset state
    have hlt : es.countP (fun e => decide (e.next ≠ .reset)) ≠ es.length := by
      intro hall
      rw [List.countP_eq_length] at hall
      cases es using List.reverseRecOn with
      | nil => cases hreset
      | append_singleton es e _ =>
        rw [stateAfter_append] at hreset
        have := hall e (by simp)
        simp only [decide_eq_true_eq] at this
        exact this hreset
    have hle := List.countP_le_length (p := fun e : Exchange => decide (e.next ≠ .reset)) (l := es)
    omega

lemma Lockstep.exchange (h : Lockstep env s) {taken : List Byte} {p : Port} {s₁ : State}
    (hf : ∀ c, Feeds env s.port c → Feeds env p (c ++ taken))
    (hline : IsLine 0x3e (s.port.uart.rxBuf ++ taken)) (hbuf : p.uart.rxBuf = [])
    (hexit : Exits { s with port := p } s₁
      (copyLine obd2PidMaxN (s.port.uart.rxBuf ++ taken))) :
    Lockstep env (obd2StateEntry s₁) := by
  obtain ⟨ats, es, hn, hats, hes, hset, hfeeds, hq, htrace⟩ := h
  obtain ⟨hport, htrace₁, hreset⟩ := hexit
  rw [cstr_copyLine] at htrace₁
  dsimp only at hport htrace₁ hreset
  refine ⟨ats, es ++ [⟨s.port.uart.rxBuf ++ taken, s₁.obd2State⟩], hn, hats, ?_, ?_, ?_, ?_, ?_⟩
  · intro e he
    rcases List.mem_append.mp he with he | he
    · exact hes e he
    · rw [List.mem_singleton] at he
      subst he
      exact hline
  · rw [settles_append]
    refine ⟨hset, fun hr => hreset (hq.trans hr), trivial⟩
  · rw [obd2StateEntry_eq]
    dsimp only
    rw [hport, hbuf]
    simpa [List.append_assoc] using hf _ hfeeds
  · rw [obd2StateEntry_eq, stateAfter_append]
    rfl
  · rw [obd2StateEntry_eq, conversation_append]
    dsimp only
    rw [htrace₁, htrace, ← hq]
    simp [conversation, reply]

/-- A call that has read a part of a line changes nothing else. -/
lemma Lockstep.wait (h : Lockstep env s) {taken : List Byte} {p : Port}
    (hf : ∀ c, Feeds env s.port c → Feeds env p (c ++ taken))
    (hbuf : p.uart.rxBuf = s.port.uart.rxBuf ++ taken) : Lockstep env { s with port := p } := by
  obtain ⟨ats, es, hn, hats, hes, hset, hfeeds, hq, htrace⟩ := h
  refine ⟨ats, es, hn, hats, hes, hset, ?_, hq, htrace⟩
  dsimp only
  rw [hbuf, ← List.append_assoc]
  exact hf _ hfeeds

/-! ### A call of `obd2_update` -/

variable {junk : List Byte} {b : Bool}

/-- **One call keeps the conversation in step**, if it finds a byte and does not time out. -/
theorem InStep.obd2Update (h : InStep env s) (hfind : FindsByte env s)
    (hu : obd2Update env junk s = .ok (b, s')) (ht : Event.timeout ∉ s'.trace) :
    InStep env s' := by
  obtain ⟨hb, heol, hlock⟩ := h
  have hlock' := hlock
  obtain ⟨ats, es, -, -, -, -, hfeeds, -, -⟩ := hlock
  cases hr : uartReadline env false obd2PidMaxN lineFuel s.port with
  | none => simp [Obd2.obd2Update, readline, hr] at hu
  | some r =>
    have hout := uartReadline_outcome hb hfeeds hr
    have hb' := hout.between
    simp only [Obd2.obd2Update, readline, hr, Option.map_some] at hu
    cases hout with
    | @line taken p hf hline hup =>
      have hnot : ¬ ((s.port.uart.rxBuf ++ taken).length : ℤ) = uartErrorTimeout := by
        unfold uartErrorTimeout
        omega
      simp only [Int.natCast_nonneg, if_true, if_neg hnot, Option.getD_some] at hu
      obtain ⟨s₁, he, hs⟩ := bind_eq_ok.mp hu
      cases hs
      have hexit := obd2StateExit_exits he
      have hport : (obd2StateEntry s₁).port = p := by
        rw [obd2StateEntry_eq]
        exact hexit.port
      refine ⟨by rwa [hport], by rw [hport, hup]; exact heol, ?_⟩
      refine hlock'.exchange (fun c hc => ?_) (by rwa [heol] at hline) (by rw [hup]) hexit
      rwa [hfeeds.unique hc]
    | @timeout taken p hf hpart hup =>
      dsimp only at hu
      rw [if_neg (by decide)] at hu
      simp only [if_true, Except.ok.injEq, Prod.mk.injEq, pure, Except.pure] at hu
      rw [← hu.2] at ht
      exact absurd (List.mem_append_right _ (List.mem_singleton_self _)) ht
    | @idle taken p hsync hf hpart hup hfirst =>
      have htaken : taken ≠ [] := fun h0 => hfind (hfirst h0)
      dsimp only at hu
      rw [if_neg htaken, if_neg (by decide), if_neg (by decide)] at hu
      simp only [Except.ok.injEq, Prod.mk.injEq, pure, Except.pure] at hu
      rw [← hu.2]
      refine ⟨hb', by dsimp only; rw [hup]; exact heol, ?_⟩
      refine hlock'.wait (fun c hc => ?_) (by rw [hup])
      rwa [hfeeds.unique hc]

/-! ### The trace grows -/

lemma readline_trace {sync : Bool} {bufsz fuel : ℕ} {rc : ℤ} {str : Option (List Byte)}
    (h : readline env sync bufsz fuel s = some (rc, str, s')) : s.trace <+: s'.trace := by
  simp only [readline, Option.map_eq_some_iff, Prod.mk.injEq] at h
  obtain ⟨r, -, -, -, rfl⟩ := h
  dsimp only
  split_ifs
  · exact List.prefix_append _ _
  · exact List.prefix_rfl

lemma obd2Update_trace (hu : Obd2.obd2Update env junk s = .ok (b, s')) : s.trace <+: s'.trace := by
  cases hr : readline env false obd2PidMaxN lineFuel s with
  | none => simp [Obd2.obd2Update, hr] at hu
  | some q =>
    obtain ⟨rc, str, s₁⟩ := q
    refine (readline_trace hr).trans ?_
    simp only [Obd2.obd2Update, hr] at hu
    split_ifs at hu
    · obtain ⟨s₂, he, hs⟩ := bind_eq_ok.mp hu
      cases hs
      rw [obd2StateEntry_eq]
      dsimp only
      rw [(obd2StateExit_exits he).trace, List.append_assoc]
      exact List.prefix_append _ _
    · simp only [pure, Except.pure, Except.ok.injEq, Prod.mk.injEq] at hu
      rw [hu.2]

/-! ### `obd2_init` -/

section
variable {fuel : ℕ} {c : List Byte} {d : Data}

lemma obd2AtCommand_trace {command : List Byte}
    (h : obd2AtCommand env fuel command s = some (b, s')) : s.trace <+: s'.trace := by
  rw [obd2AtCommand_eq, Option.map_eq_some_iff] at h
  obtain ⟨⟨rc, str, s₁⟩, hr, hq⟩ := h
  cases hq
  exact (List.prefix_append _ _).trans (readline_trace hr)

lemma obd2AtCommand_line {command : List Byte} (hb : Between s.port)
    (hbuf : s.port.uart.rxBuf = []) (hf : Feeds env s.port c)
    (h : obd2AtCommand env fuel command s = some (b, s')) (ht : Event.timeout ∉ s'.trace) :
    ∃ l, IsLine s.port.uart.uartEol l ∧ Feeds env s'.port (c ++ l) ∧
      s'.port.uart = s.port.uart ∧ s'.trace = s.trace ++ [.sendline command] := by
  rw [obd2AtCommand_eq, Option.map_eq_some_iff] at h
  obtain ⟨⟨rc, str, s₁⟩, hr, hq⟩ := h
  cases hq
  simp only [readline, Option.map_eq_some_iff, Prod.mk.injEq] at hr
  obtain ⟨r, hr, -, -, rfl⟩ := hr
  have hsame : { s.port.uart with eol := false, rxBuf := [] } = s.port.uart := by
    rw [← hb.eol, ← hbuf]
  cases uartReadline_outcome hb hf hr with
  | @line taken p hf hline hup =>
    rw [hbuf, List.nil_append] at hline
    refine ⟨taken, hline, hf, hup.trans hsame, ?_⟩
    dsimp only
    rw [if_neg]
    · rfl
    · unfold uartErrorTimeout
      omega
  | timeout hf hpart hup =>
    dsimp only at ht
    rw [if_pos rfl] at ht
    exact absurd (List.mem_append_right _ (List.mem_singleton_self _)) ht
  | idle hsync => cases hsync

lemma sendAll_trace {cmds : List (List Byte)} (h : sendAll env fuel cmds s = some s') :
    s.trace <+: s'.trace := by
  refine sendAll_inv (P := fun q => s.trace <+: q.trace) (fun cmd q b q' hq hc => ?_)
    List.prefix_rfl h
  exact hq.trans (obd2AtCommand_trace hc)

lemma sendAll_lines {cmds : List (List Byte)} (hb : Between s.port)
    (hbuf : s.port.uart.rxBuf = []) (hf : Feeds env s.port c)
    (h : sendAll env fuel cmds s = some s') (ht : Event.timeout ∉ s'.trace) :
    ∃ ats : List (List Byte), ats.length = cmds.length ∧
      (∀ l ∈ ats, IsLine s.port.uart.uartEol l) ∧ Feeds env s'.port (c ++ ats.flatten) ∧
      s'.port.uart = s.port.uart ∧ s'.trace = s.trace ++ cmds.map Event.sendline := by
  induction cmds generalizing s c with
  | nil =>
    cases h
    exact ⟨[], rfl, by simp, by simpa using hf, rfl, by simp⟩
  | cons cmd cmds ih =>
    obtain ⟨b, s₁, hc, hrest⟩ := sendAll_cons h
    have ht₁ : Event.timeout ∉ s₁.trace := fun hin => ht ((sendAll_trace hrest).subset hin)
    obtain ⟨l, hl, hf₁, hu₁, htr₁⟩ := obd2AtCommand_line hb hbuf hf hc ht₁
    have hb₁ : Between s₁.port := ⟨by rw [hu₁]; exact hb.eol, by rw [hu₁]; exact hb.part⟩
    obtain ⟨ats, hn, hats, hf', hu', htr'⟩ := ih hb₁ (by rw [hu₁, hbuf]) hf₁ hrest
    refine ⟨l :: ats, by simp [hn], ?_, by simpa [List.append_assoc] using hf', hu'.trans hu₁, ?_⟩
    · intro l' hl'
      rcases List.mem_cons.mp hl' with rfl | hl'
      · exact hl
      · rw [← hu₁]
        exact hats l' hl'
    · rw [htr', htr₁]
      simp

lemma between_obd2Clear : Between (obd2Clear { atStart with data := d }).port :=
  ⟨rfl, List.not_mem_nil, Nat.zero_le _⟩

/-- **`obd2_init` leaves the coroutine in step**, if no answer times out. -/
theorem inStep_obd2Init (h : obd2Init env fuel { atStart with data := d } = some s)
    (ht : Event.timeout ∉ s.trace) : InStep env s := by
  unfold obd2Init at h
  rw [Option.map_eq_some_iff] at h
  obtain ⟨s₁, hall, hs⟩ := h
  rw [obd2StateEntry_eq] at hs
  subst hs
  dsimp only at ht ⊢
  obtain ⟨ats, hn, hats, hf, hu, htr⟩ := sendAll_lines (c := []) (between_obd2Clear (d := d)) rfl rfl hall
    (fun hin => ht (List.mem_append_left _ hin))
  have hbuf : s₁.port.uart.rxBuf = [] := congrArg Uart.State.rxBuf hu
  have heol : s₁.port.uart.uartEol = 0x3e := congrArg Uart.State.uartEol hu
  refine ⟨⟨congrArg Uart.State.eol hu, ?_⟩, heol, ats, [], hn, hats, by simp, trivial, ?_, rfl, ?_⟩
  · dsimp only
    rw [hbuf]
    exact ⟨List.not_mem_nil, Nat.zero_le _⟩
  · dsimp only
    rw [hbuf]
    simpa using hf
  · dsimp only
    rw [htr]
    simp [conversation, obd2Clear, atStart]

end

/-! ### Runs -/

variable {junk : ℕ → List Byte} {s₀ : State}

lemma inStep_run {n : ℕ} (h₀ : Event.timeout ∉ s₀.trace → InStep env s₀)
    (hrun : run env junk s₀ n = .ok s) (ht : Event.timeout ∉ s.trace)
    (hfind : ∀ k < n, ∀ s', run env junk s₀ k = .ok s' → FindsByte env s') : InStep env s := by
  induction n generalizing s with
  | zero =>
    cases hrun
    exact h₀ ht
  | succ n ih =>
    obtain ⟨s₁, b, hn, hu⟩ := run_succ hrun
    have ht₁ : Event.timeout ∉ s₁.trace := fun hin => ht ((obd2Update_trace hu).subset hin)
    exact (ih hn ht₁ fun k hk => hfind k (by omega)).obd2Update (hfind n (by omega) s₁ hn) hu ht

/-- **Requests and replies stay in lockstep**: any number of calls of `obd2_update` after
`obd2_init` return, or the decoder leaves its data in one of them; and where they return, no
receive has timed out and every call has found a byte to read, each reply has been parsed in the
state whose request it answers, whatever the variables hold at the start. -/
theorem lockstep_run {fuel : ℕ} {d : Data}
    (hinit : obd2Init env fuel { atStart with data := d } = some s₀) (n : ℕ) :
    (∃ s, run env junk s₀ n = .ok s ∧ (Event.timeout ∉ s.trace →
      (∀ k < n, ∀ s', run env junk s₀ k = .ok s' → FindsByte env s') →
        Lockstep env s ∧ Counts s)) ∨
    ∃ e, run env junk s₀ n = .error e ∧ PidParser.Leaves e := by
  rcases @run_returns env junk s₀ (obd2Init_spec hinit).1 n with ⟨s, hrun, -⟩ | herror
  · refine .inl ⟨s, hrun, fun ht hfind => ?_⟩
    have hlock := (inStep_run (inStep_obd2Init hinit) hrun ht hfind).lockstep
    exact ⟨hlock, hlock.counts⟩
  · exact .inr herror

end

/-- The adapter answers the three commands, has no data for two requests, the first time with
a pause in the reply, and stays silent then. -/
def twoReplies : ℕ → Poll
  | 0 => ⟨ascii ">>>", 0⟩
  | 3 => ⟨ascii "NO D", 0⟩
  | 8 => ⟨ascii "ATA\r\r>NO DATA\r\r>", 0⟩
  | _ => ⟨[], 0⟩

/-- With the engine on three calls take the two replies, and the third request is open. -/
theorem lockstep_twoReplies : ∃ s₀ s,
    obd2Init twoReplies 5 { atStart with data := engineData } = some s₀ ∧
      run twoReplies (fun _ => zeros) s₀ 3 = .ok s ∧ requests s = 3 ∧ replies s = 2 ∧
      Lockstep twoReplies s ∧ Counts s := by
  have hok : ((obd2Init twoReplies 5 { atStart with data := engineData }).map fun s₀ =>
      ((run twoReplies (fun _ => zeros) s₀ 3).toOption.map fun s =>
          decide (Event.timeout ∉ s.trace ∧ requests s = 3 ∧ replies s = 2),
        (List.range 3).all fun k => ((run twoReplies (fun _ => zeros) s₀ k).toOption.map fun s =>
          decide ((s.port.status twoReplies).rx ≠ [])) == some true)) = some (some true, true) := by
    decide +kernel
  obtain ⟨s₀, hinit, hrun⟩ := Option.map_eq_some_iff.mp hok
  obtain ⟨hend, hfind⟩ := Prod.mk.inj hrun
  cases hs : run twoReplies (fun _ => zeros) s₀ 3 with
  | error e => simp [hs, Except.toOption] at hend
  | ok s =>
    simp only [hs, Except.toOption, Option.map_some, Option.some.injEq, decide_eq_true_eq] at hend
    obtain ⟨ht, hreq, hrep⟩ := hend
    have hbytes : ∀ k < 3, ∀ s', run twoReplies (fun _ => zeros) s₀ k = .ok s' →
        FindsByte twoReplies s' := by
      intro k hk s' hs'
      have hbyte := List.all_eq_true.mp hfind k (List.mem_range.mpr hk)
      simpa [FindsByte, hs', Except.toOption] using hbyte
    rcases @lockstep_run _ _ _ _ _ hinit 3 with ⟨s', hs', hlock⟩ | ⟨e, he, -⟩
    · obtain rfl : s = s' := Except.ok.inj (hs.symm.trans hs')
      exact ⟨s₀, s, hinit, hs, hreq, hrep, hlock ht hbytes⟩
    · rw [hs] at he
      cases he

/-- The adapter answers the three commands, and refuses the first request. -/
def refusal : ℕ → Poll
  | 0 => ⟨ascii ">>>", 0⟩
  | 3 => ⟨ascii "?>", 0⟩
  | _ => ⟨[], 0⟩

/-- The adapter answers the three commands, and nothing after them. -/
def silence : ℕ → Poll
  | 0 => ⟨ascii ">>>", 0⟩
  | _ => ⟨[], 0⟩

/-- A buffer that happens to hold a refusal. -/
def oldRefusal : List Byte := copyLine obd2PidMaxN (ascii "?")

/-- The refused request is not followed by another; a poll that finds nothing counts as a
reply; and a long line is cut. -/
theorem not_in_lockstep :
    (∃ s₀ s, obd2Init refusal 5 atStart = some s₀ ∧ run refusal (fun _ => zeros) s₀ 1 = .ok s ∧
      Event.timeout ∉ s.trace ∧ requests s = 1 ∧ replies s = 1) ∧
    (∃ s₀ s, obd2Init silence 5 atStart = some s₀ ∧
      run silence (fun _ => oldRefusal) s₀ 1 = .ok s ∧
      Event.timeout ∉ s.trace ∧ requests s = 1 ∧ replies s = 1) ∧
    ∃ line, IsLine 0x3e line ∧ reply line ≠ line := by
  refine ⟨⟨_, _, rfl, rfl, by decide, by decide, by decide⟩,
    ⟨_, _, rfl, rfl, by decide, by decide, by decide⟩, List.replicate 300 0x20 ++ [0x3e], ?_, ?_⟩
  · refine Or.inl ⟨_, rfl, ?_, ?_⟩
    · rw [List.mem_replicate]
      decide
    · rw [List.length_append, List.length_replicate]
      decide
  · intro heq
    have hlt := length_reply_lt (List.replicate 300 0x20 ++ [0x3e])
    rw [heq, List.length_append, List.length_replicate] at hlt
    exact absurd hlt (by decide)

end Blastit.Fw.Obd2
