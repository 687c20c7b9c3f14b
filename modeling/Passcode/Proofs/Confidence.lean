import Passcode.Proofs.Binary64.Order
import Passcode.Proofs.Settings.Bounds

/-!
# Confidence — it lies between 0 and 1, and grows with the score

* `clamp_unit`: what is clamped lies between 0 and 1 and is a number, whatever it was.
* `confidence_unit`: so does every confidence, for any settings at all.
* `confidence_le_confidence`: under settings within bounds none of which is `nan`, of two finite
  scores the lesser has the lesser confidence.  Dividing by the scale, clamping and adding the boost
  each keep the order; the boost is a number because it is a sum of numbers that are not below zero.
-/

namespace Passcode

open Binary64

/-! ### Clamping -/

/-- Clamping gives a bound, or the value itself if that lies strictly between the bounds. -/
theorem clamp_cases (v : Binary64) :
    clamp v = .zero ∨ clamp v = .one ∨
      (clamp v = v ∧ Binary64.zero.lt v = true ∧ v.lt .one = true) := by
  unfold clamp
  dsimp only
  by_cases h1 : v.lt .one = true
  · rw [if_pos h1]
    by_cases h0 : Binary64.zero.lt v = true
    · rw [if_pos h0]; exact .inr (.inr ⟨rfl, h0, h1⟩)
    · rw [if_neg h0]; exact .inl rfl
  · have hone : Binary64.zero.lt .one = true := by decide +kernel
    rw [if_neg h1, if_pos hone]; exact .inr (.inl rfl)

/-- What is clamped is a number. -/
theorem clamp_ne_nan (v : Binary64) : clamp v ≠ .nan := by
  rcases clamp_cases v with h | h | ⟨h, h0, -⟩
  · rw [h]; exact zero_ne_nan
  · rw [h]; exact one_ne_nan
  · rw [h]; exact (lt_iff.mp h0).2.1

/-- What is clamped lies between 0 and 1. -/
theorem clamp_unit (v : Binary64) :
    Binary64.zero.le (clamp v) = true ∧ (clamp v).le .one = true := by
  rcases clamp_cases v with h | h | ⟨h, h0, h1⟩
  · rw [h]; decide +kernel
  · rw [h]; decide +kernel
  · obtain ⟨-, hv, hlow⟩ := lt_iff.mp h0
    obtain ⟨-, -, hhigh⟩ := lt_iff.mp h1
    rw [h]
    exact ⟨le_iff.mpr ⟨zero_ne_nan, hv, Int.le_of_lt hlow⟩,
      le_iff.mpr ⟨hv, one_ne_nan, Int.le_of_lt hhigh⟩⟩

theorem isFinite_of_unit {x : Binary64} (h0 : Binary64.zero.le x = true) (h1 : x.le .one = true) :
    x.isFinite = true := by
  obtain ⟨-, hx, hlow⟩ := le_iff.mp h0
  obtain ⟨-, -, hhigh⟩ := le_iff.mp h1
  have htop : position .one < (topRank : Int) := by decide +kernel
  have hpos : 0 < (topRank : Int) := by decide
  rw [position_zero] at hlow
  exact isFinite_iff.mpr ⟨hx, by omega, by omega⟩

/-- It is a finite one. -/
theorem isFinite_clamp (v : Binary64) : (clamp v).isFinite = true :=
  isFinite_of_unit (clamp_unit v).1 (clamp_unit v).2

/-- Where a number is clamped to. -/
theorem position_clamp {v : Binary64} (hv : v ≠ .nan) :
    position (clamp v) = max 0 (min (position v) (position .one)) := by
  have hone : 0 < position .one := by decide +kernel
  unfold clamp
  dsimp only
  by_cases h1 : v.lt .one = true
  · have hlt := (lt_iff.mp h1).2.2
    rw [if_pos h1]
    by_cases h0 : Binary64.zero.lt v = true
    · have hgt := (lt_iff.mp h0).2.2
      rw [position_zero] at hgt
      rw [if_pos h0]; omega
    · have hle : ¬ position .zero < position v := fun h => h0 (lt_iff.mpr ⟨zero_ne_nan, hv, h⟩)
      rw [position_zero] at hle
      rw [if_neg h0, position_zero]; omega
  · have hge : ¬ position v < position .one := fun h => h1 (lt_iff.mpr ⟨hv, one_ne_nan, h⟩)
    have hlt : Binary64.zero.lt .one = true := by decide +kernel
    rw [if_neg h1, if_pos hlt]; omega

/-- Clamping keeps the order. -/
theorem clamp_le_clamp {x y : Binary64} (h : x.le y = true) : (clamp x).le (clamp y) = true := by
  obtain ⟨hx, hy, hxy⟩ := le_iff.mp h
  refine le_iff.mpr ⟨clamp_ne_nan x, clamp_ne_nan y, ?_⟩
  rw [position_clamp hx, position_clamp hy]
  omega

namespace CalibrationSettings

/-! ### Confidence -/

/-- Every confidence is from zero to one, whatever the calibration is. -/
theorem confidence_unit (c : CalibrationSettings) (flags : Flags) (score : Binary64) :
    Binary64.zero.le (c.confidence flags score) = true ∧
      (c.confidence flags score).le .one = true :=
  clamp_unit _

/-- Every confidence is a number. -/
theorem confidence_ne_nan (c : CalibrationSettings) (flags : Flags) (score : Binary64) :
    c.confidence flags score ≠ .nan :=
  clamp_ne_nan _

/-- A scale that validation lets through is not zero, so every score has a calibration. -/
theorem calibrate_eq {c : CalibrationSettings} (h : c.WithinBounds) (flags : Flags)
    (score : Binary64) :
    c.calibrate flags score =
      .ok { confidence := c.confidence flags score
            isOtp := c.threshold.le (c.confidence flags score) } := by
  have hscale : c.scale.isZero = false := by
    have := h.scale
    cases hs : c.scale with
    | nan => rfl
    | signed m s =>
      rw [hs] at this
      by_cases h0 : s.val = 0
      · have hle : Binary64.le (.signed m s) .zero = true :=
          le_iff.mpr ⟨nofun, zero_ne_nan, by rw [position, h0, key_zero, position_zero]⟩
        rw [hle] at this; cases this
      · exact decide_eq_false h0
  unfold calibrate
  rw [hscale]
  rfl

/-- None of the settings is `nan`. -/
structure AllNumbers (c : CalibrationSettings) : Prop where
  scale : c.scale ≠ .nan
  threshold : c.threshold ≠ .nan
  keywordBoost : c.keywordBoost ≠ .nan
  safetyBoost : c.safetyBoost ≠ .nan
  parcelBoost : c.parcelBoost ≠ .nan

theorem zero_le_of_passesUnit {x : Binary64} (hx : x ≠ .nan) (h : x.PassesUnit) :
    Binary64.zero.le x = true := by
  refine le_iff.mpr ⟨zero_ne_nan, hx, ?_⟩
  have hnot : ¬ position x < position .zero := fun hlt => by
    have := lt_iff.mpr ⟨hx, zero_ne_nan, hlt⟩
    rw [h.2] at this; cases this
  omega

/-- The boost is a number that is not below zero. -/
theorem boost_nonneg {c : CalibrationSettings} (h : c.WithinBounds) (hn : c.AllNumbers)
    (flags : Flags) : Binary64.zero.le (c.boost flags) = true := by
  have step : ∀ (reason : Bool) {boost sum : Binary64}, Binary64.zero.le boost = true →
      Binary64.zero.le sum = true →
        Binary64.zero.le (if reason then sum.add boost else sum) = true := by
    intro reason boost sum hb hs
    cases reason with
    | false => exact hs
    | true => exact add_nonneg hs hb
  exact step _ (zero_le_of_passesUnit hn.parcelBoost h.parcelBoost)
    (step _ (zero_le_of_passesUnit hn.safetyBoost h.safetyBoost)
      (step _ (zero_le_of_passesUnit hn.keywordBoost h.keywordBoost) (le_refl zero_ne_nan)))

/-- **Confidence grows with the score.** -/
theorem confidence_le_confidence {c : CalibrationSettings} (h : c.WithinBounds) (hn : c.AllNumbers)
    (flags : Flags) {x y : Binary64} (hx : x.isFinite = true) (hy : y.isFinite = true)
    (hxy : x.le y = true) :
    (c.confidence flags x).le (c.confidence flags y) = true := by
  have hboost : c.boost flags ≠ .nan := (le_iff.mp (boost_nonneg h hn flags)).2.1
  have hquotient := clamp_le_clamp (div_le_div hx hy hn.scale h.scale hxy)
  exact clamp_le_clamp (add_le_add (isFinite_clamp _) (isFinite_clamp _) hboost hquotient)

end CalibrationSettings

end Passcode
