import Blastit.Fw.Display
import Blastit.Fw.Leds
import Mathlib.Tactic.Linarith

/-!
`boost_update`: how many lights of the boost bar are on.

The guard on the index is the wrong way round: it raises every smaller index to `LEDS_MAX`.
-/

namespace Blastit.Fw.BoostBar

open Blastit.Fw.Panel Blastit.Fw.Display Blastit.Fw.Leds

def clamped (boost : ℚ) : ℚ := max boostMin (min boost boostMax)

def barLength (boost : ℚ) : ℕ :=
  ⌊ledsMax * (clamped boost - boostMin) / (boostMax - boostMin)⌋₊

def written (s : Display.State) : List (LedArray × BitVec 32) :=
  (boostUpdate s).panel.ledsWrVal.drop s.panel.ledsWrVal.length

/-- After a call the bar is as long as the boost says, and no other light was touched. -/
structure Follows (beyond : Beyond) (hold : ℕ → ℕ) (s : Display.State) (b : Board) : Prop where
  lit : ∀ a < ledsMax,
    (b.run hold ((written s).flatMap (send beyond))).bits .ledArray1 a = true ↔
      a < barLength s.displayParams.boost
  inside : ∀ c ∈ written s, c.1 = .ledArray1 ∧ selAddr (c.2.setWidth 10) < ledsMax

/-! ### The length -/

section
variable {boost boost' : ℚ}

lemma range_pos : (0 : ℚ) < boostMax - boostMin := by norm_num [boostMin, boostMax]

lemma boostMin_le_clamped : boostMin ≤ clamped boost := le_max_left _ _

lemma clamped_le_boostMax : clamped boost ≤ boostMax :=
  max_le (by decide) (min_le_right _ _)

lemma clamped_mono (h : boost ≤ boost') : clamped boost ≤ clamped boost' :=
  max_le_max_left _ (min_le_min_right _ h)

lemma boostMax_le_clamped_iff : boostMax ≤ clamped boost ↔ boostMax ≤ boost := by
  have hlt : ¬ boostMax ≤ boostMin := by decide
  rw [clamped, le_max_iff, le_min_iff]
  simp [hlt]

theorem barLength_mono : Monotone barLength := by
  intro boost boost' h
  refine Nat.floor_mono (div_le_div_of_nonneg_right ?_ range_pos.le)
  exact mul_le_mul_of_nonneg_left (sub_le_sub_right (clamped_mono h) _) (Nat.cast_nonneg _)

theorem barLength_boostMin : barLength boostMin = 0 := by
  norm_num [barLength, clamped, boostMin, boostMax]

/-- The bar is full from the upper limit on, and not before. -/
theorem le_barLength_iff : ledsMax ≤ barLength boost ↔ boostMax ≤ boost := by
  have hmax : (0 : ℚ) < ledsMax := by decide
  rw [barLength, Nat.le_floor_iff' (by decide), le_div_iff₀ range_pos, mul_le_mul_iff_of_pos_left hmax,
    sub_le_sub_iff_right, boostMax_le_clamped_iff]

theorem barLength_le : barLength boost ≤ ledsMax := by
  have hclamped : clamped boost - boostMin ≤ boostMax - boostMin :=
    sub_le_sub_right clamped_le_boostMax _
  refine Nat.floor_le_of_le ((div_le_iff₀ range_pos).mpr ?_)
  exact mul_le_mul_of_nonneg_left hclamped (Nat.cast_nonneg _)

theorem barLength_boostMax : barLength boostMax = ledsMax :=
  le_antisymm barLength_le (le_barLength_iff.mpr le_rfl)

/-! ### The lights -/

/-- The index is `LEDS_MAX`, whatever the boost: the guard raises what is less. -/
lemma boostIdx_eq (boost : ℚ) : boostIdx boost = ledsMax := by
  have hclamped : (if boostMax < (if boost < boostMin then boostMin else boost) then boostMax
      else if boost < boostMin then boostMin else boost) = clamped boost := by
    unfold clamped boostMin boostMax
    grind
  have hlow : 0 ≤ clamped boost - boostMin := sub_nonneg.mpr boostMin_le_clamped
  have hhigh : (⌊clamped boost - boostMin⌋₊ : ℚ) ≤ boostMax - boostMin :=
    (Nat.floor_le hlow).trans (sub_le_sub_right clamped_le_boostMax _)
  have hidx : trunc ((trunc (clamped boost - boostMin) : ℚ) * ledsMax / (boostMax - boostMin)) ≤
      ledsMax := by
    rw [trunc_of_nonneg hlow, Int.cast_natCast, trunc_of_nonneg (by have := range_pos; positivity)]
    refine Nat.cast_le.mpr (Nat.floor_le_of_le ((div_le_iff₀ range_pos).mpr ?_))
    calc (⌊clamped boost - boostMin⌋₊ : ℚ) * ledsMax
        ≤ (boostMax - boostMin) * ledsMax := mul_le_mul_of_nonneg_right hhigh (Nat.cast_nonneg _)
      _ = ledsMax * (boostMax - boostMin) := mul_comm _ _
  simp only [boostIdx, hclamped]
  split
  · rfl
  · omega

end

lemma ledsWrVal_ledsFill (arr : LedArray) (lo hi : ℤ) (en : Bool) (p : Panel) :
    (ledsFill arr lo hi en p).ledsWrVal = p.ledsWrVal ++
      (List.range (hi - lo).toNat).map fun (k : ℕ) => (arr, command (BitVec.ofInt 32 (lo + k)) en) := by
  -- the loop of the model runs over the integers
  have hcast : (List.range (hi - lo).toNat).flatMap (fun a : ℕ => [(a : ℤ)]) =
      (List.range (hi - lo).toNat).map fun a : ℕ => (a : ℤ) := List.map_eq_flatMap.symm
  refine (ledsWrVal_foldl arr (fun k : ℤ => BitVec.ofInt 32 (lo + k)) (fun _ => en) _ p).trans ?_
  exact congrArg _ ((congrArg _ hcast).trans List.map_map)

lemma ledsWrVal_boostUpdate (s : Display.State) : (boostUpdate s).panel.ledsWrVal =
    s.panel.ledsWrVal ++ (List.range ledsMax).map fun a =>
      (.ledArray1, command (BitVec.ofNat 32 a) true) := by
  obtain ⟨brightness, hpanel⟩ : ∃ brightness, (boostUpdate s).panel =
      (ledsFill .ledArray1 (boostIdx s.displayParams.boost) ledsMax false
        (ledsFill .ledArray1 0 (boostIdx s.displayParams.boost) true s.panel)).ledsSetBrightness
        .ledArray1 brightness := ⟨_, rfl⟩
  rw [hpanel, ledsWrVal_ledsSetBrightness, boostIdx_eq, ledsWrVal_ledsFill, ledsWrVal_ledsFill,
    Int.sub_self, List.append_assoc]
  simp

lemma written_eq (s : Display.State) :
    written s = (List.range ledsMax).map fun a => (.ledArray1, command (BitVec.ofNat 32 a) true) := by
  rw [written, ledsWrVal_boostUpdate, List.drop_left]

variable (beyond : Beyond) (hold : ℕ → ℕ) (s : Display.State) (b : Board)

lemma bits_written {a : ℕ} (ha : a < ledsMax) :
    (b.run hold ((written s).flatMap (send beyond))).bits .ledArray1 a = true := by
  rw [written_eq, List.flatMap_map]
  exact bits_ledsEnableLed_of_mem beyond b hold (fun _ => true) (fun a ha => List.mem_range.mp ha)
    (List.mem_range.mpr ha)

/-- **The bar is as long as the boost says exactly from the upper limit on.** -/
theorem follows_iff : Follows beyond hold s b ↔ boostMax ≤ s.displayParams.boost := by
  rw [← le_barLength_iff]
  constructor
  · intro h
    by_contra hlt
    have hlit : ledsMax - 1 < barLength s.displayParams.boost :=
      (h.lit _ (by decide)).mp (bits_written beyond hold s b (by decide))
    omega
  · intro h
    refine ⟨fun a ha => iff_of_true (bits_written beyond hold s b ha) (by omega), fun c hc => ?_⟩
    rw [written_eq] at hc
    obtain ⟨a, ha, rfl⟩ := List.mem_map.mp hc
    have hlt : a < 30 := List.mem_range.mp ha
    refine ⟨rfl, ?_⟩
    rw [selAddr_command, BitVec.toNat_ofNat]
    show a % 2 ^ 32 % 256 < 30
    omega

/-- No boost: half the bar is wanted, all of it is lit. -/
theorem not_follows_atRest :
    ¬ Follows (fun _ _ => 0) (fun _ => 0) (zeroed ⟨0, 0, 0, fun _ => 0, [], []⟩) allLit := by
  intro h
  have hlength : barLength 0 = 15 := by norm_num [barLength, clamped, boostMin, boostMax, ledsMax]
  have hlit : 15 < barLength 0 := (h.lit 15 (by decide)).mp (bits_written _ _ _ _ (by decide))
  omega

end Blastit.Fw.BoostBar
