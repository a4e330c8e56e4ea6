import Blastit.Lib.Mask
import Blastit.Lib.Polls
import Blastit.Rtl.UartDrain

/-!
`uart_flush`: waiting until the transmitter has drained.
-/

namespace Blastit.Fw.Flush

open Blastit.Lib Blastit.Lib.Polls Blastit.Rtl Blastit.Rtl.Uart Blastit.Rtl.UartFrame

variable {R W D : ℕ}

def uart1StatusTxEmpty : BitVec 32 := BitVec.twoPow 32 9

/-- `uart1_status_control`; the byte counters are outside `uart`. -/
def uart1StatusControl (s : State R W D) (rxCounterOf txCounterOf : Bool) : BitVec 10 :=
  BitVec.ofBoolListBE [txEmpty s, rxFull s, txFull s, rxEmpty s, eParity s, eFrame s,
    s.fifoRxUnit.ofReg, s.fifoTxUnit.ofReg, rxCounterOf, txCounterOf]

/-- `uart_flush` on a stream of status reads: the number of reads made and `uart_error`;
`none` while it has not returned. -/
def uartFlush (sync : Bool) (status : ℕ → BitVec 32) (fuel : ℕ) : Option (ℕ × BitVec 32) := do
  let k ←
    if sync then
      (poll (fun k => !(status k &&& uart1StatusTxEmpty == 0)) fuel 0).map (· + 1)
    else some 0
  return (k + 1, status k)

/-- A call while a `uart` runs: read number `k` is made at clock `clock k`, and finds the
byte counters as given. -/
structure Call (R W D : ℕ) where
  drive : Drive R W D
  clock : ℕ → ℕ
  rxCounterOf : ℕ → Bool
  txCounterOf : ℕ → Bool

namespace Call

variable (f : Call R W D)

def status (k : ℕ) : BitVec 32 :=
  (uart1StatusControl (f.drive.state (f.clock k)) (f.rxCounterOf k) (f.txCounterOf k)).setWidth 32

lemma status_txEmpty (k : ℕ) :
    (!(f.status k &&& uart1StatusTxEmpty == 0)) = txEmpty (f.drive.state (f.clock k)) := by
  rw [uart1StatusTxEmpty, Mask.test_eq _ (by decide), status, BitVec.getLsbD_setWidth]
  exact (Bool.true_and _).trans BitVec.getLsbD_ofBoolListBE

/-- A call that waited returns after a read at which the transmitter had drained. -/
lemma drained {fuel n : ℕ} {err : BitVec 32} (hos : 0 < f.drive.c.osTick.toNat)
    (hsb : 0 < f.drive.c.sbTick.toNat) (hroom : ∀ u, (f.drive.queue u).length ≤ 2 ^ W - 1)
    (h : uartFlush true f.status fuel = some (n, err)) :
    ∃ k, k + 2 = n ∧ f.drive.Drained (f.clock k) := by
  simp only [uartFlush, if_true, Option.bind_eq_bind] at h
  cases hp : poll (fun k => !(f.status k &&& uart1StatusTxEmpty == 0)) fuel 0 with
  | none =>
    rw [hp] at h
    cases h
  | some k =>
    rw [hp] at h
    cases h
    have hk := (first_of_poll hp).holds
    rw [status_txEmpty] at hk
    exact ⟨k, rfl, Drive.drained_of_txEmpty hos hsb (fun u _ => hroom u) hk⟩

end Call

/-- **A drained transmitter is an idle transmitter**: while the transmit buffer is empty the
transmitter rests, the line is high, and the line has carried a complete frame for every
byte written before; and `uart_flush` with `UART_FLAG_SYNC` returns after such a clock. -/
theorem drained_is_idle {R W D : ℕ} (f : Call R W D) (hos : 1 ≤ f.drive.c.osTick.toNat)
    (hsb : 1 ≤ f.drive.c.sbTick.toNat) (hroom : ∀ u, (f.drive.queue u).length ≤ 2 ^ W - 1) :
    (∀ t, txEmpty (f.drive.state t) = true → f.drive.Drained t) ∧
      ∀ fuel n err, uartFlush true f.status fuel = some (n, err) →
        ∃ k, k + 2 = n ∧ f.drive.Drained (f.clock k) :=
  ⟨fun _ he => Drive.drained_of_txEmpty hos hsb (fun u _ => hroom u) he,
    fun _ _ _ h => f.drained hos hsb hroom h⟩

/-- Two bytes written one after the other, a tick at every clock, a read at every fifth. -/
def twoBytes : Call 2 2 1 where
  drive := {
    c := ⟨8, 0, 1, 1⟩
    baud := fun _ => ⟨0, true⟩
    before := blank
    inp := twoWrites 0x55 0xc3 }
  clock := fun k => 5 * k + 2
  rxCounterOf := fun _ => false
  txCounterOf := fun _ => false

lemma length_queue_twoBytes (u : ℕ) : (twoBytes.drive.queue u).length ≤ 2 ^ 2 - 1 := by
  have hpush : Clocked.collect (fun u => (twoBytes.drive.ops u).push.toList) u =
      written twoBytes.drive.inp u := by
    refine Clocked.collect_congr fun v _ => ?_
    simp only [Drive.ops]
    split <;> rfl
  have hle := Ring.length_le_pushed twoBytes.drive.ops u
  rw [hpush] at hle
  exact hle.trans ((length_written_twoWrites 0x55 0xc3 u).trans (by decide))

theorem drained_is_idle_twoBytes :
    (∃ err, uartFlush true twoBytes.status 10 = some (7, err)) ∧
      written twoBytes.drive.inp 27 = [0x55, 0xc3] ∧ twoBytes.drive.Drained 27 := by
  have hall := drained_is_idle twoBytes (by decide) (by decide) length_queue_twoBytes
  have hflush : (uartFlush true twoBytes.status 10).map Prod.fst = some 7 := by decide +kernel
  obtain ⟨⟨n, err⟩, hsome, hn⟩ := Option.map_eq_some_iff.mp hflush
  have hn7 : n = 7 := hn
  subst hn7
  obtain ⟨k, hk, hdrained⟩ := hall.2 _ _ _ hsome
  have hk5 : k = 5 := by omega
  subst hk5
  exact ⟨⟨err, hsome⟩, by decide, hdrained⟩

end Blastit.Fw.Flush
