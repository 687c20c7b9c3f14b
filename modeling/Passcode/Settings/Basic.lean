import Passcode.Calibration
import Passcode.Document.Basic

/-!
# Settings — the numbers that a detector works with

The settings bound the length of a message, give the two windows that signals look through, and
calibrate confidences; they also name the locale of the vocabulary.  `Settings.defaultFields` is
the document of the default settings, over which a document of the user is laid.
-/

namespace Passcode

/-- The settings of a detector. -/
structure Settings where
  schemaVersion : Nat
  locale : Text
  /-- The greatest length of a message in its normal form. -/
  maxMessageLength : Nat
  moneyRadius : Nat
  phoneWindow : Nat
  calibration : CalibrationSettings
deriving DecidableEq, Repr

namespace Settings

/-- The document of the default settings. -/
def defaultFields : Fields :=
  [("schema_version", .int 1),
   ("locale", .string "en"),
   ("limits", .mapping [("max_message_length", .int 10000)]),
   ("scoring", .mapping [("money_radius", .int 25), ("phone_prefix_window", .int 5)]),
   ("calibration", .mapping
     [("score_scale", .float CalibrationSettings.default.scale),
      ("otp_threshold", .float CalibrationSettings.default.threshold),
      ("keyword_boost", .float CalibrationSettings.default.keywordBoost),
      ("safety_boost", .float CalibrationSettings.default.safetyBoost),
      ("parcel_boost", .float CalibrationSettings.default.parcelBoost)])]

/-- The document of settings. -/
def toDocument (s : Settings) : Document :=
  .mapping
    [("schema_version", .int s.schemaVersion),
     ("locale", .string (String.ofList s.locale)),
     ("limits", .mapping [("max_message_length", .int s.maxMessageLength)]),
     ("scoring", .mapping
       [("money_radius", .int s.moneyRadius), ("phone_prefix_window", .int s.phoneWindow)]),
     ("calibration", .mapping
       [("score_scale", .float s.calibration.scale),
        ("otp_threshold", .float s.calibration.threshold),
        ("keyword_boost", .float s.calibration.keywordBoost),
        ("safety_boost", .float s.calibration.safetyBoost),
        ("parcel_boost", .float s.calibration.parcelBoost)])]

end Settings

end Passcode
