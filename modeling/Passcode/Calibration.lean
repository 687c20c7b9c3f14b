import Passcode.Binary64.Decimal
import Passcode.Flags

/-!
# Calibration — from a score to a confidence

The score of the winner is divided by a scale and clamped to the numbers from 0 to 1.  Each flag
that speaks for a code adds its boost, and the sum is clamped again.  The message has a one-time
code if the confidence reaches the threshold.

All of it is arithmetic of `Binary64`.  Clamping keeps the bound unless the value compares better,
so what is not a number is clamped to 1.
-/

namespace Passcode

/-- The settings of the calibration. -/
structure CalibrationSettings where
  scale : Binary64
  threshold : Binary64
  keywordBoost : Binary64
  safetyBoost : Binary64
  parcelBoost : Binary64
deriving DecidableEq, Repr

/-- The settings that hold where no other are given: the scale 8, the threshold 0.6 and three boosts
of 0.15. -/
def CalibrationSettings.default : CalibrationSettings :=
  { scale := .ofInt 8
    threshold := .ofDecimal false 6 (-1)
    keywordBoost := .ofDecimal false 15 (-2)
    safetyBoost := .ofDecimal false 15 (-2)
    parcelBoost := .ofDecimal false 15 (-2) }

/-- A confidence with the decision that follows from it. -/
structure Calibration where
  confidence : Binary64
  isOtp : Bool
deriving DecidableEq, Repr

/-- The scale of a calibration is zero. -/
structure ZeroScale where
deriving DecidableEq, Repr

/-- The words for a scale of zero. -/
def ZeroScale.message (_ : ZeroScale) : String := "float division by zero"

/-- The value, or the bound of 0 or 1 that it does not compare better than. -/
def clamp (value : Binary64) : Binary64 :=
  let upper := if value.lt .one then value else .one
  if Binary64.lt .zero upper then upper else .zero

namespace CalibrationSettings

/-- The sum of the boosts of the flags that are set. -/
def boost (settings : CalibrationSettings) (flags : Flags) : Binary64 :=
  let add (reason : Bool) (boost sum : Binary64) : Binary64 := if reason then sum.add boost else sum
  add flags.isParcel settings.parcelBoost
    (add flags.safety settings.safetyBoost
      (add flags.speaksOfCodes settings.keywordBoost .zero))

/-- The confidence in a score under the flags of its message. -/
def confidence (settings : CalibrationSettings) (flags : Flags) (score : Binary64) : Binary64 :=
  clamp ((clamp (score.div settings.scale)).add (settings.boost flags))

/-- The calibration of a score under the flags of its message. -/
def calibrate (settings : CalibrationSettings) (flags : Flags) (score : Binary64) :
    Except ZeroScale Calibration :=
  if settings.scale.isZero then .error ⟨⟩
  else
    let confidence := settings.confidence flags score
    .ok { confidence, isOtp := settings.threshold.le confidence }

end CalibrationSettings

end Passcode
