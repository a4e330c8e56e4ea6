import Blastit.Fw.Obd2Port

/-!
The line from power-up to the end, with an adapter on the wire: `obd2_init`, the calls of
`obd2_update`, and `uart_close` in `shutdown`.

`uart_flush` waits for the transmitter to drain, so the reset that `uart_close` leaves the port in
cuts no frame, and the adapter receives what the coroutine has sent, all of it and nothing else.
-/

namespace Blastit.Fw.Session

open Blastit.Lib.Text Blastit.Lib.Calls Blastit.Lib.Clocked Blastit.Rtl Blastit.Rtl.UartFrame
  Blastit.Fw.PortActs Blastit.Fw.Line Blastit.Fw.Obd2Port
open Blastit.Fw.Uart (Fault)

/-! ### Closing -/

/-- How long the rounds of the loop of `uart_flush` take, and what comes after it. -/
structure ClosePace where
  poll : ℕ → ℕ
  rest : ℕ

section
variable {R W D : ℕ} (H : Host R W D)

/-- `uart_close` with `UART_FLAG_SYNC`, up to the write of `uart1_shutdown`. -/
def uartClose (k : ClosePace) (fuel : ℕ) (as : List Act) : Except Fault (List Act) := do
  let as ← waitEmpty H k.poll fuel as
  return as ++ [.wait k.rest]

/-- The port, which is in reset once the acts are done. -/
def portAt (as : List Act) (t : ℕ) : Rtl.Uart.State R W D :=
  if t < H.site.now as then H.site.uartAt as t else Rtl.Uart.reset (H.site.uartAt as t)

def wire (as : List Act) (t : ℕ) : Bool := Rtl.Uart.tx (portAt H as t)

/-- The other end of the wire: a `uart` with its baud counter at any phase and its buffers read
and written at any clocks. -/
structure Adapter (R W D : ℕ) where
  phase : ModMCounter.State D
  before : Rtl.Uart.State R W D
  inp : ℕ → Rtl.Uart.In

def heard (A : Adapter R W D) (as : List Act) (t : ℕ) : List Byte :=
  Rtl.Uart.delivered H.site.c H.site.dvsr A.phase A.before
    (fun u => { A.inp u with rx := wire H as u }) t

/-- **A closed port**: the reset has found the transmitter at rest with all its frames on the line,
the line stays high, and the adapter has received every byte, or will. -/
structure Closed (A : Adapter R W D) (as : List Act) : Prop where
  idle : (H.site.uartAt as (H.site.now as)).uartTxUnit.stateReg = .idle
  carries : Rtl.Uart.Carries H.site.c (H.drive as).tickAt (wire H as) asked (H.site.now as)
  high : ∀ t, H.site.now as ≤ t → wire H as t = true
  only : ∀ t, heard H A as t <+: asked.map H.site.c.lowBits
  all : ∃ u, ∀ t, u ≤ t → heard H A as t = asked.map H.site.c.lowBits

/-- The two ends while the port is not in reset. -/
def loopback (A : Adapter R W D) (as : List Act) : Loopback R W D where
  c := H.site.c
  dvsr := H.site.dvsr
  phaseA := H.site.phase
  phaseB := A.phase
  beforeA := H.site.before
  beforeB := A.before
  inA := H.site.inp as
  inB := A.inp

/-- Settings and phases with which the adapter follows the line. -/
structure Suits (A : Adapter R W D) : Prop where
  valid : H.site.c.Valid
  os : 2 ≤ H.site.c.osTick.toNat
  sb : H.site.c.osTick.toNat ≤ H.site.c.sbTick.toNat
  phase : ModMCounter.Phase H.site.dvsr H.site.phase
  phaseA : ModMCounter.Phase H.site.dvsr A.phase

end

/-! ### The transmitter -/

section
variable {R W D : ℕ} {H : Host R W D} {A : Adapter R W D} {as as' : List Act} {k : ClosePace}
  {fuel n t u : ℕ}

lemma uartAt_eq (as : List Act) (t : ℕ) : H.site.uartAt as t = (H.drive as).state t :=
  BoardLink.run_eq_state _ _ _ _ _ t

lemma uartAt_snoc_wait (as : List Act) (n t : ℕ) :
    H.site.uartAt (as ++ [.wait n]) t = H.site.uartAt as t := by
  simp only [PortReadline.Site.uartAt, PortReadline.Site.inp, inp_snoc_wait]

lemma now_snoc_wait (as : List Act) (n : ℕ) :
    H.site.now (as ++ [.wait n]) = H.site.now as + (n + 1) :=
  clocks_snoc _ as _

lemma data_snoc_wait (as : List Act) (n : ℕ) :
    (as ++ [Act.wait n]).filterMap Act.data = as.filterMap Act.data := by
  simp [Act.data]

/-- **The loop of `uart_flush`**: it only waits, and ends with an empty buffer. -/
lemma waitEmpty_spec {poll : ℕ → ℕ} (h : waitEmpty H poll n as = .ok as') :
    Rtl.Uart.txEmpty (H.site.uartAt as' (H.site.now as')) = true ∧
      as'.filterMap Act.data = as.filterMap Act.data := by
  induction n generalizing as with
  | zero => cases h
  | succ n ih =>
    simp only [waitEmpty] at h
    split at h
    · next he =>
      cases h
      exact ⟨he, data_snoc_wait as _⟩
    · obtain ⟨he, hdata⟩ := ih h
      exact ⟨he, hdata.trans (data_snoc_wait as _)⟩

lemma waitEmpty_returns {poll : ℕ → ℕ} (hn : 0 < n) (hu : u ≤ H.site.now as + n)
    (he : ∀ t, u ≤ t → Rtl.Uart.txEmpty (H.site.uartAt as t) = true) :
    ∃ as', waitEmpty H poll n as = .ok as' := by
  induction n generalizing as with
  | zero => exact absurd hn (lt_irrefl 0)
  | succ n ih =>
    simp only [waitEmpty]
    split
    · exact ⟨_, rfl⟩
    · next hbusy =>
      rw [uartAt_snoc_wait] at hbusy
      have hearly : H.site.now (as ++ [.wait (poll n)]) < u := by
        by_contra hge
        exact hbusy (he _ (by omega))
      rw [now_snoc_wait] at hearly
      refine ih (by omega) ?_ fun t ht => ?_
      · rw [now_snoc_wait]
        omega
      · rw [uartAt_snoc_wait]
        exact he t ht

section
variable {bytes : List Byte} (hs : Suits H A) (hdata : as.filterMap Act.data = bytes)
  (hlen : bytes.length ≤ 2 ^ W - 1)
include hs hdata hlen

lemma Suits.feeds : (loopback H A as).Feeds where
  valid := hs.valid
  phaseA := hs.phase
  phaseB := hs.phaseA
  txRoom t := by
    rw [BoardLink.txQueue_eq]
    exact room_drive (H := H) hdata hlen t

omit hdata hlen in
lemma Suits.samples : (loopback H A as).Samples := ⟨hs.os, hs.sb⟩

lemma Suits.stays_empty (hu : H.site.now as ≤ u) (hq : (H.drive as).queue u = []) (ht : u ≤ t) :
    Rtl.Uart.txEmpty ((H.drive as).state t) = true := by
  have hos : 0 < H.site.c.osTick.toNat := lt_of_lt_of_le (by decide) hs.os
  have hsb : 0 < H.site.c.sbTick.toNat := lt_of_lt_of_le hos hs.sb
  have hall := sent_drive (H := H) hdata hlen hos hsb
  have hfull : (H.drive as).sent u = bytes := by
    have h := hall u
    rwa [hq, List.append_nil, written_drive_of_le hdata hu] at h
  have hnil : (H.drive as).queue t = [] := by
    have h := hall t
    rw [written_drive_of_le hdata (hu.trans ht)] at h
    have hge : bytes.length ≤ ((H.drive as).sent t).length := by
      have hmono : (H.drive as).sent u <+: (H.drive as).sent t := collect_initial _ ht
      rw [hfull] at hmono
      exact hmono.length_le
    have hsum := congrArg List.length h
    rw [List.length_append] at hsum
    exact List.length_eq_zero_iff.mp (by omega)
  have hholds := (Rtl.Uart.Drive.run_mode hos hsb t
    fun v _ => Sendline.lt_of_le_sub_one (room_drive (H := H) hdata hlen v)).1
  exact hholds.empty_iff.mpr hnil

/-- **The transmitter drains.** -/
lemma Suits.exists_empty :
    ∃ u, ∀ t, u ≤ t → Rtl.Uart.txEmpty (H.site.uartAt as t) = true := by
  have hf := hs.feeds hdata hlen
  obtain ⟨u, hu, -, -, hsent⟩ := Loopback.exists_sent hf hs.samples (H.site.now as) le_rfl
  have hall := Loopback.sent_append hf hs.samples u
  have hwritten : ∀ t, H.site.now as ≤ t → (loopback H A as).written t = bytes :=
    fun t ht => written_drive_of_le (H := H) hdata ht
  rw [hwritten _ le_rfl] at hsent
  have hnil : (H.drive as).queue u = [] := by
    have hqueue : (loopback H A as).txQueue u = (H.drive as).queue u := BoardLink.txQueue_eq _ u
    rw [← hqueue]
    rw [hwritten u hu] at hall
    have hsum := congrArg List.length hall
    rw [List.length_append] at hsum
    exact List.length_eq_zero_iff.mp (by omega)
  refine ⟨u, fun t ht => ?_⟩
  rw [uartAt_eq]
  exact hs.stays_empty hdata hlen hu hnil ht

end

/-! ### The wire -/

section
variable {bytes : List Byte} (hs : Suits H A) (hdata : as.filterMap Act.data = bytes)
  (hlen : bytes.length ≤ 2 ^ W - 1)
  (he : ∀ t, H.site.now as ≤ t → Rtl.Uart.txEmpty ((H.drive as).state t) = true)
include hs hdata hlen he

/-- The reset changes nothing that can be seen. -/
lemma Suits.wire_eq (t : ℕ) : wire H as t = (H.drive as).line t := by
  have hos : 0 < H.site.c.osTick.toNat := lt_of_lt_of_le (by decide) hs.os
  have hsb : 0 < H.site.c.sbTick.toNat := lt_of_lt_of_le hos hs.sb
  unfold wire portAt
  split
  · rw [uartAt_eq]
    rfl
  · next ht =>
    have hnow : H.site.now as ≤ t := Nat.le_of_not_lt ht
    exact (drained_drive hdata hlen hos hsb hnow (he t hnow)).1.high.symm

lemma Suits.heard_eq (t : ℕ) : heard H A as t = (loopback H A as).delivered t := by
  have hin : (fun u => { A.inp u with rx := wire H as u }) = (loopback H A as).wired := by
    funext u
    rw [hs.wire_eq hdata hlen he, Loopback.wired, Rtl.Uart.Drive.line, ← uartAt_eq]
    rfl
  rw [heard, hin]
  rfl

end

/-- **A drained port is closed without loss.** -/
lemma Suits.closed (hs : Suits H A) (hdata : as.filterMap Act.data = asked) (hW : 6 ≤ W)
    (he : ∀ t, H.site.now as ≤ t → Rtl.Uart.txEmpty ((H.drive as).state t) = true) :
    Closed H A as := by
  have hlen := length_asked hW
  have hos : 0 < H.site.c.osTick.toNat := lt_of_lt_of_le (by decide) hs.os
  have hsb : 0 < H.site.c.sbTick.toNat := lt_of_lt_of_le hos hs.sb
  have hwire : wire H as = (H.drive as).line := funext (hs.wire_eq hdata hlen he)
  obtain ⟨hdrained, hcarries⟩ := drained_drive hdata hlen hos hsb le_rfl (he _ le_rfl)
  have hf := hs.feeds hdata hlen
  have hwritten : (loopback H A as).written (H.site.now as) = asked :=
    written_drive_of_le (H := H) hdata le_rfl
  have honly : ∀ t, heard H A as t <+: asked.map H.site.c.lowBits := by
    intro t
    rw [hs.heard_eq hdata hlen he]
    refine (Loopback.delivered_initial hf hs.samples t).trans ?_
    exact (written_drive (H := H) hdata t).map _
  obtain ⟨u, hu⟩ := Loopback.exists_delivered hf hs.samples (H.site.now as)
  refine ⟨?_, ?_, fun t ht => ?_, honly, u, fun t ht => ?_⟩
  · rw [uartAt_eq]
    exact hdrained.idle
  · rw [hwire]
    exact hcarries
  · rw [hwire]
    exact (drained_drive hdata hlen hos hsb ht (he t ht)).1.high
  · have hmono : (loopback H A as).delivered u <+: (loopback H A as).delivered t :=
      collect_initial _ ht
    have hge : asked.map H.site.c.lowBits <+: heard H A as t := by
      rw [hs.heard_eq hdata hlen he]
      rw [hwritten] at hu
      exact hu.trans hmono
    exact (honly t).eq_of_length_le hge.length_le

/-- `uart_close` after what has been handed to the port: it returns, and closes it without loss. -/
structure Closes (H : Host R W D) (A : Adapter R W D) (k : ClosePace) (as : List Act) : Prop where
  returns : ∃ fuel₀, ∀ fuel, fuel₀ ≤ fuel → ∃ as', uartClose H k fuel as = .ok as'
  closed : ∀ fuel as', uartClose H k fuel as = .ok as' → Closed H A as'

lemma Suits.closes (hs : Suits H A) (hdata : as.filterMap Act.data = asked) (hW : 6 ≤ W)
    (k : ClosePace) : Closes H A k as := by
  have hlen := length_asked hW
  constructor
  · obtain ⟨u, hu⟩ := hs.exists_empty hdata hlen
    refine ⟨u + 1, fun fuel hfuel => ?_⟩
    obtain ⟨as', has⟩ : ∃ as', waitEmpty H k.poll fuel as = .ok as' :=
      waitEmpty_returns (by omega) (show u ≤ H.site.now as + fuel by omega) hu
    exact ⟨as' ++ [.wait k.rest], by rw [uartClose, has]; rfl⟩
  · intro fuel as' hclose
    obtain ⟨as₁, hwait, has⟩ := bind_eq_ok.mp hclose
    cases has
    obtain ⟨hempty, hdata₁⟩ := waitEmpty_spec hwait
    rw [hdata] at hdata₁
    have hnil : (H.drive as₁).queue (H.site.now as₁) = [] := by
      have hos : 0 < H.site.c.osTick.toNat := lt_of_lt_of_le (by decide) hs.os
      have hsb : 0 < H.site.c.sbTick.toNat := lt_of_lt_of_le hos hs.sb
      have hholds := (Rtl.Uart.Drive.run_mode hos hsb (H.site.now as₁)
        fun v _ => Sendline.lt_of_le_sub_one (room_drive (H := H) hdata₁ hlen v)).1
      rw [uartAt_eq] at hempty
      exact hholds.empty_iff.mp hempty
    refine hs.closed ((data_snoc_wait as₁ k.rest).trans hdata₁) hW fun t ht => ?_
    rw [← uartAt_eq, uartAt_snoc_wait, uartAt_eq]
    rw [now_snoc_wait] at ht
    exact hs.stays_empty hdata₁ hlen le_rfl hnil (by omega)

/-- **The session from power-up to the end.** Whatever the line shows the coroutine and however
long everything takes, after `obd2_init` any number of calls of `obd2_update` return, or the decoder
leaves its data in one of them; and if they return, so does `uart_close`, and then the reset it
leaves the port in has cut no frame, the line has carried exactly the commands and the request and
stays high for ever, and an adapter at any phase receives just them, all of them. -/
theorem closes_whole {s₀ : State} (hinit : obd2Init H atStart = .ok s₀) (hs : Suits H A)
    (hW : 6 ≤ W) (k : ClosePace) (n : ℕ) :
    (∃ s, run H s₀ n = .ok s ∧ Closes H A k s.board.acts) ∨
      ∃ e, run H s₀ n = .error e ∧ PidParser.Leaves e := by
  rcases run_returns (quiet_obd2Init (d := atStart.data) hinit) n with ⟨s, hrun, -⟩ | herror
  · exact .inl ⟨s, hrun, hs.closes ((asked_obd2Init hinit).run hrun).handed hW k⟩
  · exact .inr herror

end

/-- The other end of the port of the adapter that answers. -/
def otherEnd : Adapter 9 6 1 :=
  ⟨ModMCounter.reset, Rtl.Uart.blank, fun _ => ⟨false, false, true, 0⟩⟩

lemma suits_answering : Suits answering otherEnd where
  valid := ⟨Or.inr rfl, by decide, by decide⟩
  os := by decide
  sb := by decide
  phase := ⟨by decide, by decide⟩
  phaseA := ⟨by decide, by decide⟩

theorem closes_answering : ∃ s₀ s fuel as, obd2Init answering atStart = .ok s₀ ∧
    run answering s₀ 1 = .ok s ∧ uartClose answering ⟨fun _ => 3, 7⟩ fuel s.board.acts = .ok as ∧
    Closed answering otherEnd as := by
  obtain ⟨s₀, s, hinit, hrun, -⟩ := answering_returns
  obtain ⟨⟨fuel, hfuel⟩, hclosed⟩ := of_answering hrun
    (closes_whole hinit suits_answering (Nat.le_refl 6) ⟨fun _ => 3, 7⟩ 1)
  obtain ⟨as, has⟩ := hfuel fuel le_rfl
  exact ⟨s₀, s, fuel, as, hinit, hrun, has, hclosed fuel as has⟩

end Blastit.Fw.Session
