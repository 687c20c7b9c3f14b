import Passcode.Binary64.Basic
import Passcode.Document.Basic
import Passcode.Text.Basic

/-!
# Verdict — what is said of a message in the end

A verdict says whether the message has a one-time code and whether it is a parcel notice, with the
code, the confidence and the reason.  `Verdict.make` accepts a verdict only if its confidence lies
between 0 and 1 and it has a code exactly when it is one of the two.
-/

namespace Passcode

/-- What is said of a message. -/
structure Verdict where
  isOtp : Bool
  code : Option Text
  confidence : Binary64
  reason : String
  isParcel : Bool
deriving DecidableEq, Repr

/-- Why a verdict is refused. -/
inductive VerdictFault where
  /-- The confidence does not lie between 0 and 1. -/
  | confidenceOutside
  /-- There is a code without a message kind that carries one, or the other way round. -/
  | codeMismatch
deriving DecidableEq, Repr

/-- The words for a refused verdict. -/
def VerdictFault.message : VerdictFault → String
  | .confidenceOutside => "confidence must be within [0.0, 1.0]"
  | .codeMismatch => "code must be set iff is_otp or is_parcel"

namespace Verdict

/-- The verdict of its parts, if they agree with one another. -/
def make (isOtp : Bool) (code : Option Text) (confidence : Binary64) (reason : String)
    (isParcel : Bool) : Except VerdictFault Verdict :=
  if !(Binary64.zero.le confidence && confidence.le .one) then .error .confidenceOutside
  else if code.isSome != (isOtp || isParcel) then .error .codeMismatch
  else .ok { isOtp, code, confidence, reason, isParcel }

/-- The code of a verdict as a document, null where there is none. -/
def codeDocument (code : Option Text) : Document :=
  match code with
  | some c => .string (String.ofList c)
  | none => .null

/-- The fields of the written form of a verdict. -/
def fields (v : Verdict) : Fields :=
  [("is_otp", .bool v.isOtp), ("code", codeDocument v.code), ("confidence", .float v.confidence),
   ("reason", .string v.reason), ("is_parcel", .bool v.isParcel)]

/-- The written form of a verdict. -/
def toDocument (v : Verdict) : Document := .mapping v.fields

end Verdict

end Passcode
