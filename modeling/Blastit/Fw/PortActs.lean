import Blastit.Fw.UartCalls

/-!
What the firmware does with the port, one act after the other, as one run of `uart`.

An act lets the registers be for a while, or is a call of `uart1_rx` or `uart1_tx`. The acts
follow each other without a gap, so that the control register is a waveform over all clocks.
-/

namespace Blastit.Fw.PortActs

open Blastit.Lib.Clocked Blastit.Rtl Blastit.Rtl.UartFrame Blastit.Fw.UartCalls

/-! ### Acts -/

inductive Act
  | wait (n : ℕ)
  | call (c : Call) (dwell : ℕ → ℕ)

namespace Act

/-- What the registers hold, and for how long. -/
def contents (a : Act) (r : Regs) : List (Regs × ℕ) :=
  match a with
  | .wait n => [(r, n)]
  | .call c dwell => (⟨c, dwell, fun _ => true⟩ : Episode).contents r

def after (a : Act) (r : Regs) : Regs :=
  match a with
  | .wait _ => r
  | .call c _ => (c.contents r).getLastD r

def clocks (a : Act) (r : Regs) : ℕ := span (a.contents r)

/-- The registers at each clock of the act. -/
def regsAt (a : Act) (r : Regs) (t : ℕ) : Regs := held (a.after r) (a.contents r) t

def data : Act → Option (BitVec 8)
  | .call (.uart1Tx data) _ => some data
  | _ => none

def isRx : Act → Bool
  | .call .uart1Rx _ => true
  | _ => false

end Act

/-! ### Acts one after the other -/

def contents : Regs → List Act → List (Regs × ℕ)
  | _, [] => []
  | r, a :: as => a.contents r ++ contents (a.after r) as

def after (r : Regs) (as : List Act) : Regs := as.foldl (fun r a => a.after r) r

def clocks (r : Regs) (as : List Act) : ℕ := span (contents r as)

def regsAt (r : Regs) (as : List Act) (t : ℕ) : Regs := held (after r as) (contents r as) t

/-- What the port samples, its line being `line`. -/
def inp (line : ℕ → Bool) (r : Regs) (as : List Act) (t : ℕ) : Rtl.Uart.In :=
  ⟨(regsAt r as t).rdUart, (regsAt r as t).wrUart, line t, (regsAt r as t).uart1WData⟩

/-! ### Values held -/

section
variable {α : Type*} {x y : α} {l l' : List (α × ℕ)} {t : ℕ}

lemma span_append (l l' : List (α × ℕ)) : span (l ++ l') = span l + span l' := by
  induction l with
  | nil => simp [span]
  | cons p l ih =>
    simp only [List.cons_append, span, ih]
    omega

lemma held_append_of_lt (h : t < span l) : held x (l ++ l') t = held y l t := by
  induction l generalizing t with
  | nil => simp [span] at h
  | cons p l ih =>
    simp only [List.cons_append, held]
    simp only [span] at h
    split_ifs with ht
    · rfl
    · exact ih (by omega)

lemma held_append_add (x : α) (l l' : List (α × ℕ)) (t : ℕ) :
    held x (l ++ l') (span l + t) = held x l' t := by
  induction l with
  | nil => simp [span]
  | cons p l ih =>
    simp only [List.cons_append, held, span]
    rw [if_neg (by omega), show p.2 + 1 + span l + t - (p.2 + 1) = span l + t by omega, ih]

end

variable {line : ℕ → Bool} {r : Regs} {as bs : List Act} {a : Act} {t k : ℕ}

@[simp] lemma after_nil (r : Regs) : after r [] = r := rfl

@[simp] lemma clocks_nil (r : Regs) : clocks r [] = 0 := rfl

lemma after_append (r : Regs) (as bs : List Act) : after r (as ++ bs) = after (after r as) bs :=
  List.foldl_append

lemma contents_append (r : Regs) (as bs : List Act) :
    contents r (as ++ bs) = contents r as ++ contents (after r as) bs := by
  induction as generalizing r with
  | nil => rfl
  | cons a as ih =>
    simp only [List.cons_append, contents, ih, List.append_assoc]
    rfl

lemma clocks_append (r : Regs) (as bs : List Act) :
    clocks r (as ++ bs) = clocks r as + clocks (after r as) bs := by
  rw [clocks, contents_append, span_append]
  rfl

lemma clocks_singleton (r : Regs) (a : Act) : clocks r [a] = a.clocks r := by
  simp [clocks, contents, Act.clocks]

lemma clocks_snoc (r : Regs) (as : List Act) (a : Act) :
    clocks r (as ++ [a]) = clocks r as + a.clocks (after r as) := by
  rw [clocks_append, clocks_singleton]

/-- What has been done is not changed by what is done later. -/
lemma regsAt_append (h : t < clocks r as) : regsAt r (as ++ bs) t = regsAt r as t := by
  rw [regsAt, contents_append]
  exact held_append_of_lt h

lemma regsAt_add (r : Regs) (as bs : List Act) (t : ℕ) :
    regsAt r (as ++ bs) (clocks r as + t) = regsAt (after r as) bs t := by
  rw [regsAt, contents_append, after_append]
  exact held_append_add _ _ _ t

lemma regsAt_snoc (r : Regs) (as : List Act) (a : Act) (t : ℕ) :
    regsAt r (as ++ [a]) (clocks r as + t) = a.regsAt (after r as) t := by
  rw [regsAt_add]
  simp [regsAt, contents, after, Act.regsAt]

lemma inp_append (h : t < clocks r as) : inp line r (as ++ bs) t = inp line r as t := by
  rw [inp, inp, regsAt_append h]

/-! ### The bits -/

lemma Act.control_after (a : Act) (h : r.uart1WrControl = 0) : (a.after r).uart1WrControl = 0 := by
  cases a with
  | wait n => exact h
  | call call dwell => cases call <;> rfl

lemma control_after (as : List Act) (h : r.uart1WrControl = 0) :
    (after r as).uart1WrControl = 0 :=
  foldl_inv (I := fun r : Regs => r.uart1WrControl = 0) (fun _ a ha => a.control_after ha) h as

/-- When the read bit goes up in an act, if it does. -/
def Act.rdAt : Act → Option ℕ
  | .call .uart1Rx dwell => some (dwell 0 + 1)
  | _ => none

/-- When the write bit goes up. -/
def Act.wrAt : Act → Option ℕ
  | .call (.uart1Tx _) dwell => some (dwell 0 + 1 + (dwell 1 + 1))
  | _ => none

/-- The bits are low on the last clock of an act, and each goes up where it should. -/
structure Act.Drives (a : Act) (r : Regs) : Prop where
  pos : 0 < a.clocks r
  rdLast : (a.regsAt r (a.clocks r - 1)).rdUart = false
  wrLast : (a.regsAt r (a.clocks r - 1)).wrUart = false
  rd : ∀ k < a.clocks r,
    EdgeTrigger.pulse (fun u => (a.regsAt r u).rdUart) k = decide (a.rdAt = some k)
  wr : ∀ k < a.clocks r,
    EdgeTrigger.pulse (fun u => (a.regsAt r u).wrUart) k = decide (a.wrAt = some k)
  rdIn : ∀ k, a.rdAt = some k → k < a.clocks r
  wrIn : ∀ k, a.wrAt = some k → k < a.clocks r ∧ some (a.regsAt r k).uart1WData = a.data

lemma Act.drives (a : Act) (h : r.uart1WrControl = 0) : a.Drives r := by
  cases a with
  | wait n =>
    obtain ⟨hrd, hwr⟩ := bits_of_control_zero h
    have hregs : ∀ t, (Act.wait n).regsAt r t = r := fun t => by
      simp [Act.regsAt, Act.contents, Act.after, held]
    have hlow : ∀ f : Regs → Bool, f r = false → ∀ k,
        EdgeTrigger.pulse (fun u => f ((Act.wait n).regsAt r u)) k = false := fun f hf =>
      EdgeTrigger.pulse_of_low fun t => by rw [hregs, hf]
    exact {
      pos := by simp [Act.clocks, Act.contents, span]
      rdLast := by rw [hregs, hrd]
      wrLast := by rw [hregs, hwr]
      rd := fun k _ => (hlow _ hrd k).trans (by simp [Act.rdAt])
      wr := fun k _ => (hlow _ hwr k).trans (by simp [Act.wrAt])
      rdIn := fun k hk => by simp [Act.rdAt] at hk
      wrIn := fun k hk => by simp [Act.wrAt] at hk }
  | call call dwell =>
    set e : Episode := ⟨call, dwell, fun _ => true⟩ with he
    have hlen : (Act.call call dwell).clocks r = e.clocks r := rfl
    have hregs : ∀ t, (Act.call call dwell).regsAt r t = e.regsAt r t := fun _ => rfl
    have hrdf : ∀ t, (e.regsAt r t).rdUart = (e.inp r t).rdUart := fun _ => rfl
    have hwrf : ∀ t, (e.regsAt r t).wrUart = (e.inp r t).wrUart := fun _ => rfl
    cases call with
    | uart1Rx =>
      have hbits := inp_uart1Rx h (show e.call = .uart1Rx from rfl)
      have hclocks := clocks_uart1Rx (r := r) (show e.call = .uart1Rx from rfl)
      have hd : e.dwell = dwell := rfl
      rw [hd] at hclocks
      refine ⟨?_, ?_, ?_, fun k _ => ?_, fun k _ => ?_, fun k hk => ?_, fun k hk => ?_⟩
      · omega
      · rw [hregs, hrdf, (hbits _).1, decide_eq_false_iff_not, hd]
        omega
      · rw [hregs, hwrf, (hbits _).2]
      · simp only [hregs, hrdf]
        rw [EdgeTrigger.pulse_eq_of_interval (by omega) fun t => (hbits t).1]
        simp [Act.rdAt, hd, eq_comm]
      · simp only [hregs, hwrf]
        rw [EdgeTrigger.pulse_of_low fun t => (hbits t).2]
        simp [Act.wrAt]
      · simp only [Act.rdAt, Option.some.injEq] at hk
        omega
      · simp [Act.wrAt] at hk
    | uart1Tx data =>
      have hbits := inp_uart1Tx h (show e.call = .uart1Tx data from rfl)
      have hclocks := clocks_uart1Tx (r := r) (show e.call = .uart1Tx data from rfl)
      have hd : e.dwell = dwell := rfl
      rw [hd] at hclocks
      refine ⟨?_, ?_, ?_, fun k _ => ?_, fun k _ => ?_, fun k hk => ?_, fun k hk => ?_⟩
      · omega
      · rw [hregs, hrdf, (hbits _).1]
      · rw [hregs, hwrf, (hbits _).2.1, decide_eq_false_iff_not, hd]
        omega
      · simp only [hregs, hrdf]
        rw [EdgeTrigger.pulse_of_low fun t => (hbits t).1]
        simp [Act.rdAt]
      · simp only [hregs, hwrf]
        rw [EdgeTrigger.pulse_eq_of_interval (by omega) fun t => (hbits t).2.1]
        simp [Act.wrAt, hd, eq_comm]
      · simp [Act.rdAt] at hk
      · simp only [Act.wrAt, Option.some.injEq] at hk
        refine ⟨by omega, congrArg some ((hbits k).2.2 ?_)⟩
        rw [hd]
        omega

/-- A pulse does not see further back than one clock. -/
lemma pulse_add {f : ℕ → Bool} {n : ℕ} (h : ∀ t, t + 1 = n → f t = false) (k : ℕ) :
    EdgeTrigger.pulse f (n + k) = EdgeTrigger.pulse (fun u => f (n + u)) k := by
  cases k with
  | zero =>
    cases n with
    | zero => rfl
    | succ n => simp [EdgeTrigger.pulse, h n rfl]
  | succ k => rfl

lemma low_last (h : r.uart1WrControl = 0) (ht : t + 1 = clocks r as) :
    (regsAt r as t).rdUart = false ∧ (regsAt r as t).wrUart = false := by
  induction as using List.reverseRecOn with
  | nil => simp at ht
  | append_singleton as a _ =>
    have hd := a.drives (control_after as h)
    have hpos := hd.pos
    rw [clocks_snoc] at ht
    have hlast : t = clocks r as + (a.clocks (after r as) - 1) := by omega
    rw [hlast, regsAt_snoc]
    exact ⟨hd.rdLast, hd.wrLast⟩

/-- **The pulses of the last act.** -/
lemma pulse_snoc (h : r.uart1WrControl = 0) (hk : k < a.clocks (after r as)) :
    EdgeTrigger.pulse (fun u => (inp line r (as ++ [a]) u).rdUart) (clocks r as + k) =
        decide (a.rdAt = some k) ∧
      EdgeTrigger.pulse (fun u => (inp line r (as ++ [a]) u).wrUart) (clocks r as + k) =
        decide (a.wrAt = some k) := by
  have hd := a.drives (control_after as h)
  have hlow : ∀ t, t + 1 = clocks r as →
      (inp line r (as ++ [a]) t).rdUart = false ∧ (inp line r (as ++ [a]) t).wrUart = false := by
    intro t ht
    rw [inp_append (by omega)]
    exact low_last h ht
  rw [pulse_add fun t ht => (hlow t ht).1, pulse_add fun t ht => (hlow t ht).2]
  simp only [inp, regsAt_snoc]
  exact ⟨hd.rd k hk, hd.wr k hk⟩

lemma pulse_append {f : Rtl.Uart.In → Bool} (h : t < clocks r as) :
    EdgeTrigger.pulse (fun u => f (inp line r (as ++ bs) u)) t =
      EdgeTrigger.pulse (fun u => f (inp line r as u)) t := by
  cases t with
  | zero =>
    simp only [EdgeTrigger.pulse]
    rw [inp_append h]
  | succ t =>
    simp only [EdgeTrigger.pulse]
    rw [inp_append h, inp_append (by omega)]

/-! ### What is written -/

lemma written_append (h : t ≤ clocks r as) :
    Rtl.Uart.written (inp line r (as ++ bs)) t = Rtl.Uart.written (inp line r as) t := by
  refine collect_congr fun u hu => ?_
  rw [pulse_append (f := Rtl.Uart.In.wrUart) (by omega), inp_append (by omega)]

/-- **What the transmit buffer takes** is what the calls of `uart1_tx` are given, one after the
other. -/
theorem written_clocks (line : ℕ → Bool) (h : r.uart1WrControl = 0) (as : List Act) :
    Rtl.Uart.written (inp line r as) (clocks r as) = as.filterMap Act.data := by
  induction as using List.reverseRecOn with
  | nil => rfl
  | append_singleton as a ih =>
    have hd := a.drives (control_after as h)
    have hout : ∀ k < a.clocks (after r as),
        (if EdgeTrigger.pulse (fun u => (inp line r (as ++ [a]) u).wrUart) (clocks r as + k) = true
          then [(inp line r (as ++ [a]) (clocks r as + k)).wData] else []) =
        if a.wrAt = some k then a.data.toList else [] := by
      intro k hk
      rw [(pulse_snoc h hk).2]
      by_cases hw : a.wrAt = some k
      · rw [if_pos (decide_eq_true hw), if_pos hw, ← (hd.wrIn k hw).2, inp, regsAt_snoc]
        rfl
      · rw [if_neg (by simpa using hw), if_neg hw]
    have hlast : collect (fun k =>
        if EdgeTrigger.pulse (fun u => (inp line r (as ++ [a]) u).wrUart) (clocks r as + k) = true
          then [(inp line r (as ++ [a]) (clocks r as + k)).wData] else []) (a.clocks (after r as)) =
        a.data.toList := by
      rw [collect_congr hout]
      cases hw : a.wrAt with
      | none =>
        rw [collect_eq_nil (by simp)]
        cases a with
        | wait n => rfl
        | call call dwell =>
          cases call with
          | uart1Rx => rfl
          | uart1Tx data => simp [Act.wrAt] at hw
      | some n =>
        obtain ⟨hn, hdata⟩ := hd.wrIn n hw
        rw [← hdata]
        refine (collect_once (k := n) fun u _ => ?_).trans (if_pos hn)
        simp [eq_comm]
    rw [clocks_snoc, Rtl.Uart.written, collect_add, List.filterMap_append]
    refine congrArg₂ (· ++ ·) ?_ ?_
    · exact (written_append (Nat.le_refl _)).trans ih
    · rw [hlast]
      cases hdat : a.data <;> simp [hdat]

lemma inp_snoc_wait (line : ℕ → Bool) (r : Regs) (as : List Act) (n : ℕ) :
    inp line r (as ++ [.wait n]) = inp line r as := by
  have hregs : ∀ t, regsAt r (as ++ [.wait n]) t = regsAt r as t := by
    intro t
    rcases Nat.lt_or_ge t (clocks r as) with ht | ht
    · exact regsAt_append ht
    · obtain ⟨k, rfl⟩ := Nat.exists_eq_add_of_le ht
      have hself := regsAt_add r as [] k
      rw [List.append_nil] at hself
      rw [regsAt_snoc, hself]
      simp [Act.regsAt, Act.contents, Act.after, held, regsAt, contents]
  funext t
  simp only [inp, hregs]

lemma written_initial (line : ℕ → Bool) (h : r.uart1WrControl = 0) (as : List Act) (t : ℕ) :
    Rtl.Uart.written (inp line r as) t <+: as.filterMap Act.data := by
  have hall := written_clocks line h (as ++ [.wait t])
  have hnone : [Act.wait t].filterMap Act.data = [] := rfl
  rw [inp_snoc_wait, List.filterMap_append, hnone, List.append_nil, clocks_snoc] at hall
  rw [← hall]
  refine collect_initial _ ?_
  simp only [Act.clocks, Act.contents, span]
  omega

end Blastit.Fw.PortActs
