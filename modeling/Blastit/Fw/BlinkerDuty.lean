import Blastit.Fw.Display

/-!
The duty cycle of a blinker over any calls of `blinker_start`, `blinker_stop` and
`blinker_update`.

`blinker_update` turns at 100 after it has counted, and `blinker_start` clears the sign but not
the duty cycle. So a blinker that is started at 100 is still to rise; with a divisor above 1 the
next update turns it round before it counts, with 1 it counts to 101 and past the turning point.
-/

namespace Blastit.Fw.Display

open Blastit.Lib.Clocked Blastit.Fw.Panel

/-- The calls. What the list does is given: `added` says that `display_slink_add` has linked the
blinker anew, `listed` that `blinker_update` comes across it. -/
inductive BlinkerCall
  | start (added : Bool)
  | stop
  | update (listed : Bool)
  deriving DecidableEq, Repr

/-- What a call does to the `blinker_data` it is about. -/
def BlinkerData.call (d : BlinkerData) : BlinkerCall → BlinkerData
  | .start added => { d with count := 0, sign := 0, done := if added then 0 else d.done }
  | .stop => { d with done := 1 }
  | .update listed => if listed = true ∧ d.done = 0 then d.advance else d

/-- A blinker before its first call. -/
def BlinkerData.fresh (done dvsr : BitVec 8) : BlinkerData := ⟨done, dvsr, 0, 0, 0⟩

/-- The blinker after the first `t` calls. -/
abbrev blinkerRun (d : BlinkerData) (calls : ℕ → BlinkerCall) (t : ℕ) : BlinkerData :=
  exec BlinkerData.call d calls t

/-- Over the first `n` calls the duty cycle is a percentage, and every update changes it by one
at most. -/
structure StaysPercent (d : BlinkerData) (calls : ℕ → BlinkerCall) (n : ℕ) : Prop where
  percent : ∀ t ≤ n, (blinkerRun d calls t).dutyCycle.toNat ≤ 100
  brightness : ∀ t ≤ n, warnBrightnessMax * (blinkerRun d calls t).dutyCycle.toNat / 100 < 2 ^ 8
  change : ∀ t < n, ∀ listed, calls t = .update listed →
    (blinkerRun d calls (t + 1)).dutyCycle.toNat ≤ (blinkerRun d calls t).dutyCycle.toNat + 1 ∧
    (blinkerRun d calls t).dutyCycle.toNat ≤ (blinkerRun d calls (t + 1)).dutyCycle.toNat + 1

/-- The blinker has been started at the top, and would count at once. -/
def OverTop (d : BlinkerData) : Prop := d.dvsr = 1 ∧ d.dutyCycle = 100 ∧ d.sign = 0

instance (d : BlinkerData) : Decidable (OverTop d) := inferInstanceAs (Decidable (_ ∧ _ ∧ _))

/-- No update counts a blinker that has been started at the top. -/
def NeverOverTop (d : BlinkerData) (calls : ℕ → BlinkerCall) (n : ℕ) : Prop :=
  ∀ t < n, calls t = .update true → (blinkerRun d calls t).done = 0 →
    ¬ OverTop (blinkerRun d calls t)

/-! ### One call -/

section
variable {d : BlinkerData} {dvsr : BitVec 8}

/-- The first half of a pass: counting. -/
def BlinkerData.count1 (d : BlinkerData) : BlinkerData :=
  if d.count + 1 = d.dvsr.setWidth 16 then
    if d.sign = 0 then { d with count := 0, dutyCycle := d.dutyCycle + 1 }
    else { d with count := 0, dutyCycle := d.dutyCycle - 1 }
  else { d with count := d.count + 1 }

/-- The second half: turning. -/
def BlinkerData.turn (d : BlinkerData) : BlinkerData :=
  if d.dutyCycle = 100 then { d with sign := 1 }
  else if d.dutyCycle = 0 then { d with sign := 0 }
  else d

lemma advance_eq (d : BlinkerData) : d.advance = d.count1.turn := rfl

/-- Between two calls: a falling blinker is not at the bottom, and one that rises from the top
has just been started. -/
structure InRange (dvsr : BitVec 8) (d : BlinkerData) : Prop where
  divisor : d.dvsr = dvsr
  count : d.count.toNat < dvsr.toNat
  percent : d.dutyCycle.toNat ≤ 100
  down : d.sign ≠ 0 → d.dutyCycle ≠ 0
  top : d.dutyCycle = 100 → d.sign = 0 → d.count = 0

lemma inRange_fresh (done : BitVec 8) (hdvsr : 0 < dvsr.toNat) :
    InRange dvsr (BlinkerData.fresh done dvsr) :=
  ⟨rfl, hdvsr, Nat.zero_le _, fun h => absurd rfl h, fun _ _ => rfl⟩

lemma InRange.count_iff (h : InRange dvsr d) :
    d.count + 1 = d.dvsr.setWidth 16 ↔ d.count.toNat + 1 = dvsr.toNat := by
  have hcount := h.count
  have hlt := dvsr.isLt
  rw [h.divisor, ← BitVec.toNat_inj, BitVec.toNat_add, BitVec.toNat_setWidth]
  have h1 : (1 : BitVec 16).toNat = 1 := rfl
  rw [h1, Nat.mod_eq_of_lt (by omega), Nat.mod_eq_of_lt (by omega)]

lemma InRange.count1 (h : InRange dvsr d) (hsafe : ¬ OverTop d) :
    d.count1.dvsr = dvsr ∧ d.count1.count.toNat < dvsr.toNat ∧ d.count1.dutyCycle.toNat ≤ 100 ∧
      d.count1.dutyCycle.toNat ≤ d.dutyCycle.toNat + 1 ∧
      d.dutyCycle.toNat ≤ d.count1.dutyCycle.toNat + 1 := by
  have hcount := h.count
  have hpercent := h.percent
  unfold BlinkerData.count1
  by_cases hfull : d.count.toNat + 1 = dvsr.toNat
  · rw [if_pos (h.count_iff.mpr hfull)]
    by_cases hsign : d.sign = 0
    · have hlow : d.dutyCycle ≠ 100 := by
        intro htop
        have hzero : d.count.toNat = 0 := by rw [h.top htop hsign]; rfl
        refine hsafe ⟨?_, htop, hsign⟩
        rw [h.divisor]
        exact BitVec.eq_of_toNat_eq (by rw [← hfull, hzero]; rfl)
      have hup : (d.dutyCycle + 1).toNat = d.dutyCycle.toNat + 1 := by bv_omega
      have hne : d.dutyCycle.toNat ≠ 100 := fun h100 => hlow (BitVec.eq_of_toNat_eq h100)
      rw [if_pos hsign]
      refine ⟨h.divisor, Nat.zero_lt_of_lt hcount, ?_⟩
      dsimp only
      omega
    · have hne : d.dutyCycle.toNat ≠ 0 := fun h0 => h.down hsign (BitVec.eq_of_toNat_eq h0)
      have hdown : (d.dutyCycle - 1).toNat = d.dutyCycle.toNat - 1 := by bv_omega
      rw [if_neg hsign]
      refine ⟨h.divisor, Nat.zero_lt_of_lt hcount, ?_⟩
      dsimp only
      omega
  · have hlt := dvsr.isLt
    have hnext : (d.count + 1).toNat = d.count.toNat + 1 := by bv_omega
    rw [if_neg (mt h.count_iff.mp hfull)]
    refine ⟨h.divisor, ?_, hpercent, Nat.le_succ _, Nat.le_succ _⟩
    dsimp only
    omega

@[simp] lemma turn_dutyCycle (d : BlinkerData) : d.turn.dutyCycle = d.dutyCycle := by
  unfold BlinkerData.turn
  split_ifs <;> rfl

lemma inRange_turn (hdvsr : d.dvsr = dvsr) (hcount : d.count.toNat < dvsr.toNat)
    (hpercent : d.dutyCycle.toNat ≤ 100) : InRange dvsr d.turn := by
  unfold BlinkerData.turn
  split_ifs with htop hbottom
  · refine ⟨hdvsr, hcount, hpercent, fun _ => ?_, fun _ hs => by cases hs⟩
    dsimp only
    rw [htop]
    decide
  · exact ⟨hdvsr, hcount, hpercent, fun hs => absurd rfl hs, fun h => absurd h htop⟩
  · exact ⟨hdvsr, hcount, hpercent, fun _ => hbottom, fun h => absurd h htop⟩

lemma InRange.advance (h : InRange dvsr d) (hsafe : ¬ OverTop d) : InRange dvsr d.advance := by
  obtain ⟨hdvsr, hcount, hpercent, -⟩ := h.count1 hsafe
  rw [advance_eq]
  exact inRange_turn hdvsr hcount hpercent

/-- At the top, a blinker that rises with divisor 1 is counted out of its range. -/
lemma InRange.over (h : InRange dvsr d) (hover : OverTop d) : d.advance.dutyCycle = 101 := by
  obtain ⟨hone, htop, hsign⟩ := hover
  have hfull : d.count + 1 = d.dvsr.setWidth 16 := by
    rw [h.top htop hsign, hone]
    rfl
  rw [advance_eq, turn_dutyCycle, BlinkerData.count1, if_pos hfull, if_pos hsign]
  dsimp only
  rw [htop]
  rfl

lemma call_dvsr (d : BlinkerData) (c : BlinkerCall) : (d.call c).dvsr = d.dvsr := by
  cases c with
  | start added => rfl
  | stop => rfl
  | update listed =>
    unfold BlinkerData.call BlinkerData.advance
    dsimp only
    split_ifs <;> rfl

lemma call_update (d : BlinkerData) (listed : Bool) :
    d.call (.update listed) = if listed = true ∧ d.done = 0 then d.advance else d := rfl

/-- What a call may do without leaving the range. -/
def Safe (d : BlinkerData) (c : BlinkerCall) : Prop := c = .update true → d.done = 0 → ¬ OverTop d

lemma InRange.call (h : InRange dvsr d) {c : BlinkerCall} (hsafe : Safe d c) :
    InRange dvsr (d.call c) := by
  cases c with
  | start added =>
    exact ⟨h.divisor, Nat.zero_lt_of_lt h.count, h.percent, fun hs => absurd rfl hs, fun _ _ => rfl⟩
  | stop => exact ⟨h.divisor, h.count, h.percent, h.down, h.top⟩
  | update listed =>
    rw [call_update]
    split_ifs with hlive
    · exact h.advance (hsafe (by rw [hlive.1]) hlive.2)
    · exact h

lemma InRange.change (h : InRange dvsr d) {listed : Bool} (hsafe : Safe d (.update listed)) :
    (d.call (.update listed)).dutyCycle.toNat ≤ d.dutyCycle.toNat + 1 ∧
      d.dutyCycle.toNat ≤ (d.call (.update listed)).dutyCycle.toNat + 1 := by
  rw [call_update]
  split_ifs with hlive
  · obtain ⟨-, -, -, hchange⟩ := h.count1 (hsafe (by rw [hlive.1]) hlive.2)
    rwa [advance_eq, turn_dutyCycle]
  · exact ⟨Nat.le_succ _, Nat.le_succ _⟩

end

/-! ### Runs -/

section
variable {done dvsr : BitVec 8} {calls : ℕ → BlinkerCall} {n : ℕ}

lemma blinkerRun_succ (d : BlinkerData) (t : ℕ) :
    blinkerRun d calls (t + 1) = (blinkerRun d calls t).call (calls t) := rfl

lemma inRange_run (hdvsr : 0 < dvsr.toNat)
    (h : NeverOverTop (.fresh done dvsr) calls n) {t : ℕ} (ht : t ≤ n) :
    InRange dvsr (blinkerRun (.fresh done dvsr) calls t) :=
  exec_inv (inRange_fresh done hdvsr) (fun _ _ hd (hs : Safe _ _) => hd.call hs) t
    fun u hu => h u (by omega)

lemma StaysPercent.mono {d : BlinkerData} {m : ℕ} (h : StaysPercent d calls n) (hm : m ≤ n) :
    StaysPercent d calls m :=
  ⟨fun t ht => h.percent t (by omega), fun t ht => h.brightness t (by omega),
    fun t ht => h.change t (by omega)⟩

lemma staysPercent_of_neverOverTop (hdvsr : 0 < dvsr.toNat)
    (h : NeverOverTop (.fresh done dvsr) calls n) : StaysPercent (.fresh done dvsr) calls n := by
  have hrange : ∀ t ≤ n, InRange dvsr (blinkerRun (.fresh done dvsr) calls t) :=
    fun t ht => inRange_run hdvsr h ht
  refine ⟨fun t ht => (hrange t ht).percent, fun t ht => ?_, fun t ht listed hcall => ?_⟩
  · have hpercent := (hrange t ht).percent
    unfold warnBrightnessMax
    omega
  · rw [blinkerRun_succ, hcall]
    refine (hrange t ht.le).change ?_
    rw [← hcall]
    exact h t ht

/-- **The duty cycle stays a percentage exactly as long as no update counts a blinker with
divisor 1 that has been started at 100.** -/
theorem staysPercent_iff (hdvsr : 1 ≤ dvsr.toNat) (done : BitVec 8) (calls : ℕ → BlinkerCall)
    (n : ℕ) : StaysPercent (.fresh done dvsr) calls n ↔ NeverOverTop (.fresh done dvsr) calls n := by
  constructor
  · intro h
    induction n with
    | zero => exact fun t ht => absurd ht (Nat.not_lt_zero t)
    | succ n ih =>
      have hbefore := ih (h.mono (Nat.le_succ n))
      intro t ht hcall hlive hover
      rcases Nat.lt_succ_iff_lt_or_eq.mp ht with hlt | rfl
      · exact hbefore t hlt hcall hlive hover
      · have hnext : (blinkerRun (.fresh done dvsr) calls (t + 1)).dutyCycle = 101 := by
          rw [blinkerRun_succ, hcall, call_update, if_pos ⟨rfl, hlive⟩]
          exact (inRange_run hdvsr hbefore le_rfl).over hover
        have hpercent := h.percent (t + 1) le_rfl
        rw [hnext] at hpercent
        exact absurd hpercent (by decide)
  · exact staysPercent_of_neverOverTop hdvsr

/-- The divisors that `display.h` allows need no condition. -/
theorem staysPercent_of_one_lt {done dvsr : BitVec 8} (hdvsr : 1 < dvsr.toNat)
    (calls : ℕ → BlinkerCall) (n : ℕ) : StaysPercent (.fresh done dvsr) calls n := by
  have hkeep : ∀ t, (blinkerRun (.fresh done dvsr) calls t).dvsr = dvsr := by
    intro t
    induction t with
    | zero => rfl
    | succ t ih => rw [blinkerRun_succ, call_dvsr, ih]
  refine staysPercent_of_neverOverTop (by omega) fun t _ _ _ hover => ?_
  have hone := hover.1
  rw [hkeep] at hone
  rw [hone] at hdvsr
  exact absurd hdvsr (by decide)

end

/-! ### The blinkers of the display -/

section
variable {s : State} {b c : Blinker}

lemma bdata_blinkerStart : (blinkerStart b s).bdata c =
    if c = b then (s.bdata b).call (.start (decide (b ∉ s.sdata))) else s.bdata c := by
  unfold blinkerStart slinkAdd
  by_cases hc : c = b
  · subst hc
    by_cases hmem : c ∈ s.sdata <;> simp [hmem, BlinkerData.call]
  · by_cases hmem : b ∈ s.sdata <;> simp [hmem, hc]

lemma bdata_blinkerStop : (blinkerStop b s).bdata c =
    if c = b then (s.bdata b).call .stop else s.bdata c := by
  unfold blinkerStop
  by_cases hc : c = b
  · subst hc
    simp [BlinkerData.call]
  · simp [hc]

lemma bdata_blinkerVisit : (blinkerVisit s b).bdata c =
    (s.bdata c).call (.update (decide (b = c))) := by
  simp only [call_update, decide_eq_true_eq]
  unfold blinkerVisit
  by_cases hc : b = c
  · subst hc
    simp only [true_and]
    split
    · exact Function.update_self b _ s.bdata
    · rfl
  · simp only [hc, false_and, if_false]
    split
    · exact Function.update_of_ne (Ne.symm hc) _ s.bdata
    · rfl

lemma bdata_blinkerUpdate (hnodup : s.sdata.Nodup) : (blinkerUpdate s).bdata c =
    (s.bdata c).call (.update (decide (c ∈ s.sdata))) := by
  have hfold : ∀ (l : List Blinker) (s : State), l.Nodup →
      (l.foldl blinkerVisit s).bdata c = (s.bdata c).call (.update (decide (c ∈ l))) := by
    intro l
    induction l with
    | nil => exact fun s _ => by simp [BlinkerData.call]
    | cons b l ih =>
      intro s hl
      obtain ⟨hb, hl⟩ := List.nodup_cons.mp hl
      rw [List.foldl_cons, ih _ hl, bdata_blinkerVisit]
      by_cases hbc : b = c
      · subst hbc
        simp [hb, BlinkerData.call]
      · simp [hbc, Ne.symm hbc, BlinkerData.call]
  exact hfold s.sdata s hnodup

/-- No call lists a blinker twice. -/
lemma nodup_blinkerStart (h : s.sdata.Nodup) : (blinkerStart b s).sdata.Nodup := by
  unfold blinkerStart slinkAdd
  split
  · exact h
  · next hmem => exact List.nodup_append.mpr ⟨h, List.nodup_singleton b, by
      rintro x hx y hy rfl
      exact hmem (by rwa [List.mem_singleton.mp hy] at hx)⟩

lemma nodup_blinkerUpdate (h : s.sdata.Nodup) : (blinkerUpdate s).sdata.Nodup := by
  unfold blinkerUpdate slinkCompact
  rw [sdata_foldl_blinkerVisit]
  exact h.filter _

end

/-- A call of one of the three routines. -/
inductive BlinkCall
  | start (b : Blinker)
  | stop (b : Blinker)
  | update

def State.blink (s : State) : BlinkCall → State
  | .start b => blinkerStart b s
  | .stop b => blinkerStop b s
  | .update => blinkerUpdate s

/-- What the call is to the blinker `c`; a call about another one is none of its updates. -/
def BlinkCall.seenBy (c : Blinker) (s : State) : BlinkCall → BlinkerCall
  | .start b => if c = b then .start (decide (b ∉ s.sdata)) else .update false
  | .stop b => if c = b then .stop else .update false
  | .update => .update (decide (c ∈ s.sdata))

lemma nodup_blink {s : State} (h : s.sdata.Nodup) (k : BlinkCall) : (s.blink k).sdata.Nodup := by
  cases k with
  | start b => exact nodup_blinkerStart h
  | stop b => exact h
  | update => exact nodup_blinkerUpdate h

lemma bdata_blink {s : State} (h : s.sdata.Nodup) (k : BlinkCall) (c : Blinker) :
    (s.blink k).bdata c = (s.bdata c).call (k.seenBy c s) := by
  cases k with
  | start b =>
    simp only [State.blink, BlinkCall.seenBy, bdata_blinkerStart]
    split
    · next hc => rw [hc]
    · rfl
  | stop b =>
    simp only [State.blink, BlinkCall.seenBy, bdata_blinkerStop]
    split
    · next hc => rw [hc]
    · rfl
  | update => exact bdata_blinkerUpdate h

/-- **Each blinker of the display goes through a run of its own**, whatever is called for
which. -/
theorem bdata_run {s : State} (h : s.sdata.Nodup) (inp : ℕ → BlinkCall) (c : Blinker) (t : ℕ) :
    (exec State.blink s inp t).bdata c =
      blinkerRun (s.bdata c) (fun u => (inp u).seenBy c (exec State.blink s inp u)) t := by
  induction t with
  | zero => rfl
  | succ t ih =>
    have hnodup : (exec State.blink s inp t).sdata.Nodup :=
      exec_inv_all (I := fun s : State => s.sdata.Nodup) h (fun _ k hs => nodup_blink hs k) t
    rw [exec_succ, bdata_blink hnodup, blinkerRun_succ, ih]

/-- Updates up to the top, a start, and one update more. -/
def startAtTop : ℕ → BlinkerCall := fun t => if t = 100 then .start false else .update true

theorem staysPercent_updates : StaysPercent (.fresh 0 1) (fun _ => .update true) 3 :=
  (staysPercent_iff (by decide) 0 _ 3).mpr (by unfold NeverOverTop; decide)

/-- The divisor of `boost_init`: 101 percent. -/
theorem not_staysPercent_startAtTop : ¬ StaysPercent (.fresh 0 1) startAtTop 102 := by
  intro h
  exact absurd (h.percent 102 le_rfl) (by decide +kernel)

end Blastit.Fw.Display
