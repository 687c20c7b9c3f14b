import Passcode.Proofs.Explanation

/-!
# Decision — one winner by raw score stands for all candidates

The detector picks one winner by score and calibrates that score alone.  Nothing is lost by it
(`decision_by_winner`): under settings within bounds none of which is `nan`, confidence grows with
the score, so the confidence in the winner is the greatest of the confidences in all candidates, and
it reaches the threshold exactly if some candidate's confidence does.  Distinct scores may share a
confidence, at 0, at 1 or by rounding; the winner is the first candidate with the greatest score all
the same, and the reason names its code (`exists_reason`).
-/

namespace Passcode.Detector

open Binary64

variable {d : Detector} {raw : Text}

theorem isFinite_score {s : ScoredCandidate} (h : s ∈ d.scoresOf raw) :
    s.score.toBinary64.isFinite = true :=
  ScoredCandidate.isFinite_score h

/-- The reason names the code of the winner between quotation marks, before its length. -/
theorem exists_reason (w : ScoredCandidate) (flags : Flags) (confidence : Binary64) :
    ∃ rest, reason w flags confidence =
      "Best candidate: '" ++ String.ofList w.candidate.code ++ "' (len=" ++ rest := by
  unfold reason
  simp only [String.append_assoc]
  exact ⟨_, rfl⟩

/-- The confidence in the winner is the greatest of all. -/
theorem confidence_le_verdictOn (hd : d.settings.WithinBounds)
    (hn : d.settings.calibration.AllNumbers) (flags : Flags) {w s : ScoredCandidate}
    (hw : winner? (d.scoresOf raw) = some w) (hs : s ∈ d.scoresOf raw) :
    (d.settings.calibration.confidence flags s.score.toBinary64).le
      (d.verdictOn flags w).confidence = true := by
  obtain ⟨hmem, hmax⟩ := winner?_max hw
  rw [verdictOn_confidence]
  exact CalibrationSettings.confidence_le_confidence hd.calibration hn flags
    (isFinite_score hs) (isFinite_score hmem) (Score.toBinary64_le (hmax s hs))

/-- **One winner stands for all candidates.**  Where there are candidates, the explanation lists
them in the order in which they are found; the winner is the first of them with the greatest score,
and the reason names its code between quotation marks.  The confidence of the verdict is the
greatest that the calibration gives to a candidate, and the message has a one-time code exactly if
the confidence in some candidate reaches the threshold. -/
theorem decision_by_winner (d : Detector) (hd : d.settings.WithinBounds)
    (hn : d.settings.calibration.AllNumbers) (raw : Text)
    (hc : candidatesOf (d.messageOf raw).text ≠ []) :
    ∃ l flags before w behind, d.explain raw = .ok l ∧ l.value.flags = some flags ∧
      l.value.candidates = before ++ w :: behind ∧
      l.value.candidates.map ScoredCandidate.candidate = candidatesOf (d.messageOf raw).text ∧
      (∀ s ∈ l.value.candidates, s.score.halves ≤ w.score.halves) ∧
      (∀ s ∈ before, s.score.halves < w.score.halves) ∧
      (∀ s ∈ l.value.candidates, ∃ k,
        d.settings.calibration.calibrate flags s.score.toBinary64 = .ok k ∧
          k.confidence.le l.value.verdict.confidence = true) ∧
      (∃ k, d.settings.calibration.calibrate flags w.score.toBinary64 = .ok k ∧
        k.confidence = l.value.verdict.confidence) ∧
      (l.value.verdict.isOtp = true ↔ ∃ s ∈ l.value.candidates, ∃ k,
        d.settings.calibration.calibrate flags s.score.toBinary64 = .ok k ∧
          d.settings.calibration.threshold.le k.confidence = true) ∧
      l.value.verdict.reason = reason w flags l.value.verdict.confidence ∧
      (∃ rest, l.value.verdict.reason =
        "Best candidate: '" ++ String.ofList w.candidate.code ++ "' (len=" ++ rest) ∧
      l.value.verdict.code =
        if l.value.verdict.isOtp || l.value.verdict.isParcel then some w.candidate.code
        else none := by
  obtain ⟨w, entries, hw, hexplain⟩ := explain_of_candidates hd hc
  obtain ⟨before, behind, hsplit, hbefore, -⟩ := winner?_split hw
  obtain ⟨hmem, hmax⟩ := winner?_max hw
  have hcalibrate := CalibrationSettings.calibrate_eq hd.calibration
    (d.flagsOf (d.messageOf raw))
  refine ⟨_, d.flagsOf (d.messageOf raw), before, w, behind, hexplain, ?_⟩
  dsimp only
  refine ⟨rfl, hsplit, scoresOf_candidates d raw, hmax, hbefore, fun s hs => ?_, ?_,
    ⟨fun h => ?_, ?_⟩, rfl, exists_reason w _ _, rfl⟩
  · exact ⟨_, hcalibrate _, confidence_le_verdictOn hd hn _ hw hs⟩
  · exact ⟨_, hcalibrate _, rfl⟩
  · exact ⟨w, hmem, _, hcalibrate _, h⟩
  · -- What one candidate reaches the winner reaches, for its confidence is no less.
    rintro ⟨s, hs, k, hk, hreach⟩
    rw [hcalibrate] at hk
    cases hk
    exact le_trans hreach (confidence_le_verdictOn hd hn _ hw hs)

theorem plain_allNumbers : plain.settings.calibration.AllNumbers :=
  ⟨by decide +kernel, by decide +kernel, by decide +kernel, by decide +kernel, by decide +kernel⟩

/-- Both groups and the whole of a code are candidates here. -/
theorem decision_by_winner_grouped :
    plain.settings.WithinBounds ∧ plain.settings.calibration.AllNumbers ∧
      candidatesOf (plain.messageOf "OTP is 123 456".toList).text ≠ [] ∧
        ∃ l w, plain.explain "OTP is 123 456".toList = .ok l ∧ w ∈ l.value.candidates ∧
          (∀ s ∈ l.value.candidates, s.score.halves ≤ w.score.halves) ∧
          (∃ rest, l.value.verdict.reason =
            "Best candidate: '" ++ String.ofList w.candidate.code ++ "' (len=" ++ rest) ∧
          l.value.verdict.code =
            if l.value.verdict.isOtp || l.value.verdict.isParcel then some w.candidate.code
            else none := by
  have hc : candidatesOf (plain.messageOf "OTP is 123 456".toList).text ≠ [] := by decide +kernel
  obtain ⟨l, flags, before, w, behind, hexplain, -, hsplit, -, hmax, -, -, -, -, -, hnamed,
    hcode⟩ :=
    decision_by_winner plain plain_withinBounds plain_allNumbers "OTP is 123 456".toList hc
  exact ⟨plain_withinBounds, plain_allNumbers, hc, l, w, hexplain,
    hsplit ▸ List.mem_append_right _ List.mem_cons_self, hmax, hnamed, hcode⟩

end Passcode.Detector
