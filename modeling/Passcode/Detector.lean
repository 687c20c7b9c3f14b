import Passcode.Candidate.Extract
import Passcode.Journal
import Passcode.Message
import Passcode.Settings.Reading
import Passcode.Signal
import Passcode.Verdict
import Passcode.Vocabulary.Store

/-!
# Detector — from a message to its verdict

A detector has its settings, the keyword lists of a vocabulary, and the messages of the vocabulary
for the occasions on which no candidate can be named.

`Detector.explain` brings a message into its normal form, takes its flags, finds its candidates and
scores them, calibrates the score of the winner, and gives the verdict with all that led to it.  An
empty message and a message without candidates have verdicts of their own, whose reason is the
message of the occasion.
-/

namespace Passcode

/-- What finds codes in messages. -/
structure Detector where
  settings : Settings
  otp : KeywordList
  safety : KeywordList
  money : KeywordList
  parcel : KeywordList
  message : Occasion → String

/-- The verdict on a message with all that led to it. -/
structure Explanation where
  verdict : Verdict
  message : Message
  /-- The flags of the message, none if it is empty. -/
  flags : Option Flags
  candidates : List ScoredCandidate
deriving DecidableEq, Repr

/-- Why a message gets no verdict. -/
inductive DetectionFault where
  | noCandidates
  | zeroScale (fault : ZeroScale)
  | verdict (fault : VerdictFault)
deriving DecidableEq, Repr

/-- The words for a message that gets no verdict. -/
def DetectionFault.message : DetectionFault → String
  | .noCandidates => "no candidates to choose from"
  | .zeroScale fault => fault.message
  | .verdict fault => fault.message

namespace Detector

/-- The detector with the words of a vocabulary. -/
def of (settings : Settings) (vocabulary : Vocabulary) : Detector :=
  { settings
    otp := .of vocabulary.lists.otp
    safety := .of vocabulary.lists.safety
    money := .of vocabulary.lists.money
    parcel := .of vocabulary.lists.parcel
    message := vocabulary.message }

/-! ### The words of a verdict -/

/-- The word for a truth value. -/
def truth (b : Bool) : String := if b then "True" else "False"

/-- A score with two digits behind the point. -/
def shown (x : Binary64) : String := String.ofList x.fixedTwo

/-- The reason of a verdict that names a candidate. -/
def reason (winner : ScoredCandidate) (flags : Flags) (confidence : Binary64) : String :=
  "Best candidate: '" ++ String.ofList winner.candidate.code ++ "' (len=" ++
    toString winner.candidate.length ++ "), score=" ++ shown winner.score.toBinary64 ++
    ". HasOtpKeyword=" ++ truth flags.otp ++ ", HasSafetyKeyword=" ++ truth flags.safety ++
    ", HasCjkOtpIndicator=" ++ truth flags.cjk ++ ", IsParcel=" ++ truth flags.isParcel ++
    ", GlobalConfidence=" ++ shown confidence ++ "."

/-! ### Entries of the journal -/

/-- The name under which the detector writes its entries. -/
def writer : String := "otpscan.detect.otp"

/-- The entry on a message without candidates. -/
def withoutCandidates (occasion : Occasion) : Entry :=
  { level := .debug, writer, words := "No candidates (" ++ occasion.name ++ ")" }

/-- The entry on the winner among so many candidates. -/
def won (winner : ScoredCandidate) (confidence : Binary64) (candidates : Nat) : Entry :=
  { level := .debug
    writer
    words := "Winner " ++ String.ofList (Text.quoted winner.candidate.code) ++ " score=" ++
      shown winner.score.toBinary64 ++ " confidence=" ++ shown confidence ++ " of " ++
      toString candidates ++ " candidates" }

/-! ### Explanations -/

/-- The confidence in the verdict on a message that has no candidates. -/
def lowConfidence : Binary64 := .ofDecimal false 1 (-1)

/-- The occasion of a message that has no candidates. -/
def occasionOf (flags : Flags) : Occasion :=
  if flags.speaksOfCodes then .keywordButNoCode
  else if flags.isParcel then .parcelKeywordButNoCode
  else .noOtpKeyword

/-- The flags of a message. -/
def flagsOf (d : Detector) (m : Message) : Flags :=
  Flags.of m.lower d.otp.items d.safety.items d.parcel.items

/-- The candidates of a message with their scores. -/
def scoredOf (d : Detector) (m : Message) (flags : Flags) (candidates : List Candidate) :
    List ScoredCandidate :=
  let surroundings : Surroundings :=
    { text := m.text
      lower := m.lower
      centres := (keywordCentres m.lower d.otp.items).map Int.ofNat
      moneyIndicators := d.money.items
      hasSafetyKeyword := flags.safety
      moneyRadius := d.settings.moneyRadius
      phoneWindow := d.settings.phoneWindow }
  ScoredCandidate.ofAll surroundings (.of m.text) candidates

/-- The explanation of a message that is empty. -/
def explainEmpty (d : Detector) (m : Message) : Except DetectionFault Explanation :=
  match Verdict.make false none .zero (d.message .emptyMessage) false with
  | .error fault => .error (.verdict fault)
  | .ok verdict => .ok { verdict, message := m, flags := none, candidates := [] }

/-- The explanation of a message that has no candidates. -/
def explainNone (d : Detector) (m : Message) (flags : Flags) :
    Except DetectionFault Explanation :=
  match Verdict.make false none lowConfidence (d.message (occasionOf flags)) false with
  | .error fault => .error (.verdict fault)
  | .ok verdict => .ok { verdict, message := m, flags := some flags, candidates := [] }

/-- The explanation of a message by its candidates and their scores. -/
def explainScored (d : Detector) (m : Message) (flags : Flags) (scored : List ScoredCandidate) :
    Except DetectionFault (Logged Explanation) :=
  match winner? scored with
  | none => .error .noCandidates
  | some winner =>
    match d.settings.calibration.calibrate flags winner.score.toBinary64 with
    | .error fault => .error (.zeroScale fault)
    | .ok calibration =>
      let code := if calibration.isOtp || flags.isParcel then some winner.candidate.code else none
      match Verdict.make calibration.isOtp code calibration.confidence
          (reason winner flags calibration.confidence) flags.isParcel with
      | .error fault => .error (.verdict fault)
      | .ok verdict =>
        .ok ⟨[won winner calibration.confidence scored.length],
          { verdict, message := m, flags := some flags, candidates := scored }⟩

/-- The verdict on a message with all that led to it. -/
def explain (d : Detector) (raw : Text) : Except DetectionFault (Logged Explanation) :=
  let m := Message.ofText (some (d.settings.maxMessageLength : Int)) raw
  if m.isEmpty then (d.explainEmpty m).map .quiet
  else
    let flags := d.flagsOf m
    match candidatesOf m.text with
    | [] => (d.explainNone m flags).map (fun e => ⟨[withoutCandidates (occasionOf flags)], e⟩)
    | c :: cs => d.explainScored m flags (d.scoredOf m flags (c :: cs))

/-- The verdict on a message. -/
def detect (d : Detector) (raw : Text) : Except DetectionFault (Logged Verdict) :=
  (d.explain raw).map (fun l => l.map Explanation.verdict)

end Detector

/-! ### The written form -/

/-- The written form of the flags of a message. -/
def Flags.toDocument (f : Flags) : Document :=
  .mapping
    [("has_otp_keyword", .bool f.otp), ("has_safety_keyword", .bool f.safety),
     ("has_cjk_otp_indicator", .bool f.cjk), ("is_parcel", .bool f.isParcel)]

/-- The written form of the contributions of the signals. -/
def Breakdown.toDocument (b : Breakdown) : Document :=
  .mapping (b.named.map (fun s => (s.1, .float s.2.toBinary64)))

/-- The written form of a candidate with its score. -/
def ScoredCandidate.toDocument (s : ScoredCandidate) : Document :=
  .mapping
    [("code", .string (String.ofList s.candidate.code)), ("start", .int s.candidate.first),
     ("end", .int s.candidate.last), ("source", .string s.candidate.source.name),
     ("score", .float s.score.toBinary64), ("signals", s.breakdown.toDocument)]

/-- The written form of an explanation. -/
def Explanation.toDocument (e : Explanation) : Document :=
  .mapping
    (e.verdict.fields ++
      [("normalized", .string (String.ofList e.message.text)),
       ("flags", match e.flags with
        | some f => f.toDocument
        | none => .null),
       ("candidates", .list (e.candidates.map ScoredCandidate.toDocument))])

end Passcode
