import Blastit.Fw.BcdConvert

/-!
The handshake of `bcd_convert` against the converter alone.

While the start bit is high the converter starts again whenever it is ready, so by the time the
bit is low any number of conversions may have been started and the last one may be anywhere.
All of them are conversions of one input, and the status is ready only between them.
-/

namespace Blastit.Fw.BcdConvert

open Blastit.Lib.Clocked Blastit.Lib.Decimal
open Blastit.Rtl Blastit.Rtl.Bin2bcd

/-- The digits of the converter, as `bcd1_bcd` has them. -/
def bcdWord (s : State main) : BitVec 16 := bcd s 3 ++ bcd s 2 ++ bcd s 1 ++ bcd s 0

/-- A conversion of `i`, started by a pulse of one clock, ends with the word `w`. -/
def EndsWith (i : In main) (w : BitVec 16) : Prop :=
  ∀ (s : State main) (ins : ℕ → In main), s.stateReg = .idle → ins 0 = i →
    (∀ t, (ins (t + 1)).start = false) →
    ∃ n, (exec next s ins n).stateReg = .done ∧ ∀ t, n ≤ t → bcdWord (exec next s ins t) = w

lemma bcdWord_eq {s s' : State main} {x : ℕ} (h : Shows s x) (h' : Shows s' x) :
    bcdWord s = bcdWord s' := by
  have hg : ∀ g, bcd s g = bcd s' g := fun g =>
    BitVec.eq_of_toNat_eq ((h g).trans (h' g).symm)
  simp [bcdWord, hg]

lemma endsWith_of_shows {i : In main} {s' : State main} (hi : i.start = true)
    (h : Shows s' (topBits (loaded i) (passes main.bcdN))) : EndsWith i (bcdWord s') := by
  intro s ins hidle h0 hlow
  have hstart : (ins 0).start = true := by rw [h0, hi]
  refine ⟨passes main.bcdN + 1, ?_, fun t ht => ?_⟩
  · have hlast := exec_after (by decide) hidle hstart (Nat.le_refl _)
    rw [hlast.phase, if_pos rfl]
  · have hshows := exec_shows (by decide) hidle hstart hlow ht
    rw [h0] at hshows
    exact bcdWord_eq hshows h

/-- The nibbles of a word, the highest first. -/
def nibblesOf (w : BitVec 16) : List (BitVec 8) :=
  [3, 2, 1, 0].map fun g => (w.extractLsb' (4 * g) 4).setWidth 8

lemma nibblesOf_append (d3 d2 d1 d0 : BitVec 4) :
    nibblesOf (d3 ++ d2 ++ d1 ++ d0) =
      [d3.setWidth 8, d2.setWidth 8, d1.setWidth 8, d0.setWidth 8] := by
  simp only [nibblesOf, List.map_cons, List.map_nil, List.cons.injEq, and_true]
  refine ⟨?_, ?_, ?_, ?_⟩ <;>
    · apply BitVec.eq_of_getLsbD_eq
      intro i hi
      simp only [BitVec.getLsbD_setWidth, BitVec.getLsbD_extractLsb', BitVec.getLsbD_append]
      interval_cases i <;> simp

lemma nibblesOf_bcd1Bcd {b b' : Board} {T : Timing} {bin : BitVec 32} {fuel : ℕ}
    {out : List (BitVec 8)} (h : b.Quiet) (hc : bcdConvert T bin fuel b = some (b', out)) :
    out = nibblesOf b'.bcd1Bcd := by
  obtain ⟨-, hshows, hout⟩ := bcdConvert_spec h hc
  rw [hout, Board.bcd1Bcd, nibblesOf_append, setWidth_bcd hshows, setWidth_bcd hshows,
    setWidth_bcd hshows, setWidth_bcd hshows]
  rfl

/-- **The handshake does not depend on timing**: however long the start bit is held and however
the status is polled, a call returns, and the word whose nibbles it returns is the one that a
conversion of the same input started by a pulse of one clock ends with. -/
theorem handshake {b : Board} (h : InUse b) (T : Timing) (bin : BitVec 32) :
    (∃ fuel b' out, bcdConvert T bin fuel b = some (b', out)) ∧
      ∀ fuel b' out, bcdConvert T bin fuel b = some (b', out) →
        EndsWith (input bin) b'.bcd1Bcd ∧ out = nibblesOf b'.bcd1Bcd := by
  refine ⟨exists_bcdConvert T bin h.quiet, fun fuel b' out hc => ?_⟩
  obtain ⟨-, hshows, -⟩ := bcdConvert_spec h.quiet hc
  exact ⟨endsWith_of_shows rfl hshows, nibblesOf_bcd1Bcd h.quiet hc⟩

/-- The start bit held for a hundred clocks. -/
def held : Timing := { steady with hold := 99 }

theorem handshake_held :
    ∃ b, InUse b ∧ ∃ fuel b' out, bcdConvert held 1234 fuel b = some (b', out) ∧
      EndsWith (input 1234) b'.bcd1Bcd ∧ out = nibblesOf b'.bcd1Bcd := by
  obtain ⟨b, hb⟩ := exists_inUse
  obtain ⟨⟨fuel, b', out, hc⟩, hall⟩ := handshake hb held 1234
  exact ⟨b, hb, fuel, b', out, hc, hall fuel b' out hc⟩

end Blastit.Fw.BcdConvert
