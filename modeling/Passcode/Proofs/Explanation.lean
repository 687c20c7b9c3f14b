import Passcode.Detector
import Passcode.Proofs.Confidence
import Passcode.Proofs.Winner

/-!
# Explanation — every message gets one, and what is in it

`Detector.explain` has three ways to end: the message is empty in its normal form
(`explain_of_empty`), it has no candidates (`explain_of_no_candidates`), or its winner has a verdict
(`explain_of_candidates`).  In none of them does a fault arise under settings within bounds: a
winner exists where there is a candidate, the scale is not zero, and a clamped confidence and a code
that goes with the kind of the message are what a verdict is made of.

**Totality** (`explain_total`): under settings within bounds every message has an explanation, with
a confidence that is a number between 0 and 1 and a code exactly if the message is of a kind that
carries one.
-/

namespace Passcode

open Binary64

/-- A verdict is made if its confidence is from zero to one and it has a code just when it is
positive. -/
theorem Verdict.make_eq_ok {isOtp isParcel : Bool} {code : Option Text} {confidence : Binary64}
    {reason : String} (h0 : Binary64.zero.le confidence = true)
    (h1 : confidence.le .one = true) (hcode : code.isSome = (isOtp || isParcel)) :
    make isOtp code confidence reason isParcel =
      .ok { isOtp, code, confidence, reason, isParcel } := by
  simp only [make, h0, h1, hcode, Bool.and_self, Bool.not_true, Bool.false_eq_true, if_false,
    bne_self_eq_false]

namespace Detector

/-- The detector with the default settings whose only keyword is "otp". -/
def plain : Detector :=
  .of .default (.given { otp := ["otp".toList], safety := [], money := [], parcel := [] }
    (fun _ => none))

theorem plain_withinBounds : plain.settings.WithinBounds := Settings.withinBounds_default

/-! ### The three ways to end -/

/-- The normal form in which the detector reads a raw message. -/
def messageOf (d : Detector) (raw : Text) : Message :=
  Message.ofText (some (d.settings.maxMessageLength : Int)) raw

/-- The scored candidates of a raw message. -/
def scoresOf (d : Detector) (raw : Text) : List ScoredCandidate :=
  d.scoredOf (d.messageOf raw) (d.flagsOf (d.messageOf raw)) (candidatesOf (d.messageOf raw).text)

/-- The verdict on a message with some flags by its winner. -/
def verdictOn (d : Detector) (flags : Flags) (winner : ScoredCandidate) : Verdict :=
  let confidence := d.settings.calibration.confidence flags winner.score.toBinary64
  let isOtp := d.settings.calibration.threshold.le confidence
  { isOtp
    code := if isOtp || flags.isParcel then some winner.candidate.code else none
    confidence
    reason := reason winner flags confidence
    isParcel := flags.isParcel }

/-- The confidence of a verdict on a winner is the calibrated one of its score. -/
theorem verdictOn_confidence (d : Detector) (flags : Flags) (w : ScoredCandidate) :
    (d.verdictOn flags w).confidence =
      d.settings.calibration.confidence flags w.score.toBinary64 := rfl

variable {d : Detector} {raw : Text}

theorem isEmpty_iff {m : Message} : m.isEmpty = true ↔ m.text = [] := List.isEmpty_iff

theorem zero_unit : Binary64.zero.le .zero = true ∧ Binary64.zero.le .one = true := by
  decide +kernel

theorem lowConfidence_unit :
    Binary64.zero.le lowConfidence = true ∧ lowConfidence.le .one = true := by decide +kernel

/-- An empty message is explained in one way, with no confidence. -/
theorem explain_of_empty (h : (d.messageOf raw).text = []) :
    d.explain raw = .ok (.quiet
      { verdict := ⟨false, none, .zero, d.message .emptyMessage, false⟩
        message := d.messageOf raw, flags := none, candidates := [] }) := by
  unfold explain
  dsimp only
  rw [← messageOf, if_pos (isEmpty_iff.mpr h), explainEmpty,
    Verdict.make_eq_ok zero_unit.1 zero_unit.2 rfl]
  rfl

/-- A message without candidates has no code, and its verdict is that of its flags. -/
theorem explain_of_no_candidates (h : (d.messageOf raw).text ≠ [])
    (hc : candidatesOf (d.messageOf raw).text = []) :
    ∃ entries, d.explain raw = .ok
      ⟨entries,
        { verdict :=
            ⟨false, none, lowConfidence,
              d.message (occasionOf (d.flagsOf (d.messageOf raw))), false⟩
          message := d.messageOf raw, flags := some (d.flagsOf (d.messageOf raw))
          candidates := [] }⟩ := by
  refine ⟨[withoutCandidates (occasionOf (d.flagsOf (d.messageOf raw)))], ?_⟩
  unfold explain
  dsimp only
  rw [← messageOf, if_neg (fun he => h (isEmpty_iff.mp he)), hc]
  dsimp only
  delta explainNone
  rw [Verdict.make_eq_ok lowConfidence_unit.1 lowConfidence_unit.2 rfl]
  simp only [Except.map]

/-- A message with candidates has a winner, and its verdict is that on the winner. -/
theorem explain_of_candidates (hd : d.settings.WithinBounds)
    (hc : candidatesOf (d.messageOf raw).text ≠ []) :
    ∃ w entries, winner? (d.scoresOf raw) = some w ∧ d.explain raw = .ok
      ⟨entries,
        { verdict := d.verdictOn (d.flagsOf (d.messageOf raw)) w
          message := d.messageOf raw, flags := some (d.flagsOf (d.messageOf raw))
          candidates := d.scoresOf raw }⟩ := by
  obtain ⟨c, cs, hcs⟩ := List.exists_cons_of_ne_nil hc
  have htext : (d.messageOf raw).text ≠ [] := fun h => by
    rw [h] at hc; exact hc (by decide)
  have hscores : d.scoresOf raw =
      d.scoredOf (d.messageOf raw) (d.flagsOf (d.messageOf raw)) (c :: cs) := by
    rw [scoresOf, hcs]
  obtain ⟨w, hw⟩ : ∃ w, winner? (d.scoresOf raw) = some w := by
    rw [hscores]; exact ⟨_, rfl⟩
  have hunit := CalibrationSettings.confidence_unit d.settings.calibration
    (d.flagsOf (d.messageOf raw)) w.score.toBinary64
  refine ⟨w, [won w (d.verdictOn (d.flagsOf (d.messageOf raw)) w).confidence
    (d.scoresOf raw).length], hw, ?_⟩
  unfold explain
  dsimp only
  rw [← messageOf, if_neg (fun he => htext (isEmpty_iff.mp he)), hcs]
  dsimp only
  rw [← hscores, explainScored, hw]
  dsimp only
  rw [CalibrationSettings.calibrate_eq hd.calibration]
  dsimp only
  rw [Verdict.make_eq_ok hunit.1 hunit.2 (by split <;> simp_all)]
  rfl

/-- The candidates that are scored are those of the text, in their order. -/
theorem scoresOf_candidates (d : Detector) (raw : Text) :
    (d.scoresOf raw).map ScoredCandidate.candidate = candidatesOf (d.messageOf raw).text :=
  ScoredCandidate.ofAll_candidates _ _ _

theorem scoresOf_of_no_candidates (h : candidatesOf (d.messageOf raw).text = []) :
    d.scoresOf raw = [] := by
  rw [scoresOf, h]; rfl

/-- In every explanation the message and the candidates are those of the raw message, and a code is
the code of the winner. -/
theorem exists_explanation (hd : d.settings.WithinBounds) (raw : Text) :
    ∃ l, d.explain raw = .ok l ∧ l.value.message = d.messageOf raw ∧
      l.value.candidates = d.scoresOf raw ∧
      ∀ code, l.value.verdict.code = some code →
        ∃ w, winner? (d.scoresOf raw) = some w ∧ w.candidate.code = code := by
  by_cases hc : candidatesOf (d.messageOf raw).text = []
  · have hnone := scoresOf_of_no_candidates hc
    by_cases ht : (d.messageOf raw).text = []
    · exact ⟨_, explain_of_empty ht, rfl, hnone.symm, nofun⟩
    · obtain ⟨entries, hexplain⟩ := explain_of_no_candidates ht hc
      refine ⟨_, hexplain, ?_⟩
      dsimp only
      exact ⟨rfl, hnone.symm, nofun⟩
  · obtain ⟨w, entries, hw, hexplain⟩ := explain_of_candidates hd hc
    refine ⟨_, hexplain, ?_⟩
    dsimp only
    refine ⟨rfl, rfl, fun code hcode => ⟨w, hw, ?_⟩⟩
    dsimp only [verdictOn] at hcode
    split at hcode
    · exact Option.some.inj hcode
    · cases hcode

/-- The flags in an explanation are those of the message, unless that is empty. -/
theorem flags_of_explain (hd : d.settings.WithinBounds) {l : Logged Explanation}
    (h : d.explain raw = .ok l) (ht : (d.messageOf raw).text ≠ []) :
    l.value.flags = some (d.flagsOf (d.messageOf raw)) := by
  by_cases hc : candidatesOf (d.messageOf raw).text = []
  · obtain ⟨entries, hexplain⟩ := explain_of_no_candidates ht hc
    cases h.symm.trans hexplain; rfl
  · obtain ⟨w, entries, -, hexplain⟩ := explain_of_candidates hd hc
    cases h.symm.trans hexplain; rfl

/-! ### Totality -/

/-- The confidence of a verdict on a winner is a number from zero to one. -/
theorem verdictOn_unit (d : Detector) (flags : Flags) (w : ScoredCandidate) :
    (d.verdictOn flags w).confidence ≠ .nan ∧
      Binary64.zero.le (d.verdictOn flags w).confidence = true ∧
        (d.verdictOn flags w).confidence.le .one = true :=
  ⟨CalibrationSettings.confidence_ne_nan _ _ _, CalibrationSettings.confidence_unit _ _ _⟩

/-- A verdict on a winner has a code just when it is positive. -/
theorem verdictOn_code (d : Detector) (flags : Flags) (w : ScoredCandidate) :
    (d.verdictOn flags w).code.isSome =
      ((d.verdictOn flags w).isOtp || (d.verdictOn flags w).isParcel) := by
  unfold verdictOn
  dsimp only
  split <;> simp_all

/-- In every explanation there is a code exactly if the message is of a kind that carries one. -/
theorem code_isSome_of_explain (hd : d.settings.WithinBounds) {l : Logged Explanation}
    (h : d.explain raw = .ok l) :
    l.value.verdict.code.isSome = (l.value.verdict.isOtp || l.value.verdict.isParcel) := by
  by_cases ht : (d.messageOf raw).text = []
  · cases h.symm.trans (explain_of_empty ht); rfl
  · by_cases hc : candidatesOf (d.messageOf raw).text = []
    · obtain ⟨entries, hexplain⟩ := explain_of_no_candidates ht hc
      cases h.symm.trans hexplain; rfl
    · obtain ⟨w, entries, -, hexplain⟩ := explain_of_candidates hd hc
      cases h.symm.trans hexplain; exact verdictOn_code d _ w

/-- **Totality**: under settings within bounds every message has an explanation, whatever the
keyword lists and the messages of the detector.  Its confidence is a number between 0 and 1, and it
has a code exactly if the message is of a kind that carries one.  An empty message has confidence 0
and no flags; a message without candidates has confidence 0.1, whatever its flags say. -/
theorem explain_total (d : Detector) (hd : d.settings.WithinBounds) (raw : Text) :
    ∃ l, d.explain raw = .ok l ∧
      l.value.verdict.confidence ≠ .nan ∧
      Binary64.zero.le l.value.verdict.confidence = true ∧
      l.value.verdict.confidence.le .one = true ∧
      l.value.verdict.code.isSome = (l.value.verdict.isOtp || l.value.verdict.isParcel) ∧
      ((d.messageOf raw).text = [] →
        l.value.verdict.isOtp = false ∧ l.value.verdict.isParcel = false ∧
          l.value.verdict.code = none ∧ l.value.verdict.confidence = .zero ∧
            l.value.flags = none) ∧
      ((d.messageOf raw).text ≠ [] → candidatesOf (d.messageOf raw).text = [] →
        l.value.verdict.isOtp = false ∧ l.value.verdict.isParcel = false ∧
          l.value.verdict.code = none ∧ l.value.verdict.confidence = .ofDecimal false 1 (-1)) := by
  by_cases ht : (d.messageOf raw).text = []
  · refine ⟨_, explain_of_empty ht, zero_ne_nan, zero_unit.1, zero_unit.2, rfl,
      fun _ => ⟨rfl, rfl, rfl, rfl, rfl⟩, fun h => absurd ht h⟩
  · by_cases hc : candidatesOf (d.messageOf raw).text = []
    · obtain ⟨entries, hexplain⟩ := explain_of_no_candidates ht hc
      exact ⟨_, hexplain, (le_iff.mp lowConfidence_unit.1).2.1, lowConfidence_unit.1,
        lowConfidence_unit.2, rfl, fun h => absurd h ht, fun _ _ => ⟨rfl, rfl, rfl, rfl⟩⟩
    · obtain ⟨w, entries, -, hexplain⟩ := explain_of_candidates hd hc
      have hunit := verdictOn_unit d (d.flagsOf (d.messageOf raw)) w
      exact ⟨_, hexplain, hunit.1, hunit.2.1, hunit.2.2, verdictOn_code d _ w,
        fun h => absurd h ht, fun _ h => absurd h hc⟩

/-- The detector whose calibration has no numbers at all, which no bound keeps out. -/
def unnumbered : Detector :=
  { plain with settings := { Settings.default with calibration := ⟨.nan, .nan, .nan, .nan, .nan⟩ } }

theorem unnumbered_withinBounds : unnumbered.settings.WithinBounds :=
  ⟨by decide, by decide, ⟨rfl, ⟨rfl, rfl⟩, ⟨rfl, rfl⟩, ⟨rfl, rfl⟩, ⟨rfl, rfl⟩⟩⟩

theorem explain_total_unnumbered :
    unnumbered.settings.WithinBounds ∧
      ∃ l, unnumbered.explain "OTP is 123456".toList = .ok l ∧
        l.value.verdict.confidence ≠ .nan ∧
        Binary64.zero.le l.value.verdict.confidence = true ∧
        l.value.verdict.confidence.le .one = true ∧
        l.value.verdict.code.isSome = (l.value.verdict.isOtp || l.value.verdict.isParcel) := by
  obtain ⟨l, hexplain, hnan, hlow, hhigh, hcode, -⟩ :=
    explain_total unnumbered unnumbered_withinBounds "OTP is 123456".toList
  exact ⟨unnumbered_withinBounds, l, hexplain, hnan, hlow, hhigh, hcode⟩

end Detector

end Passcode
