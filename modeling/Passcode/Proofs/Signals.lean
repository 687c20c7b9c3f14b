import Passcode.Proofs.Keyword.Nearest
import Passcode.Proofs.Line.Index
import Passcode.Proofs.Text.Lowercase
import Passcode.Proofs.Text.Occurrence
import Passcode.Proofs.Winner

/-!
# Signals — surroundings in which a candidate scores no less

A signal with points to gain is worth no less where its reason holds more often (`given_mono`), and
one with points to lose where its reason holds less often (`given_anti`).  Keyword proximity is
worth no less where there are more centres (`ofDistance_of_subset`), since the nearest one is no
further away.

Surroundings are *milder* than others of the same text if they have more keyword centres, the safety
keywords that the others have, fewer money indicators, which count within a smaller radius, and a
smaller phone window (`Surroundings.Milder`).  In milder surroundings no candidate scores less
(`Breakdown.total_le_total`).
-/

namespace Passcode

open Text

namespace Signal

theorem given_mono {reason reason' : Bool} {points : Int} (hp : 0 ≤ points)
    (h : reason = true → reason' = true) :
    (given reason ⟨points⟩).halves ≤ (given reason' ⟨points⟩).halves := by
  cases reason with
  | false =>
    cases reason' with
    | false => exact Int.le_refl _
    | true => exact hp
  | true => rw [h rfl]

theorem given_anti {reason reason' : Bool} {points : Int} (hp : points ≤ 0)
    (h : reason' = true → reason = true) :
    (given reason ⟨points⟩).halves ≤ (given reason' ⟨points⟩).halves := by
  cases reason' with
  | false =>
    cases reason with
    | false => exact Int.le_refl _
    | true => exact hp
  | true => rw [h rfl]

/-! ### Keyword proximity -/

theorem ofDistance_some (d : Nat) :
    (ofDistance (some d)).halves =
      if d ≤ 20 then 4 else if d ≤ 40 then 2 else if d ≤ 80 then 1 else 0 := by
  simp only [ofDistance, proximityTiers, List.find?_cons, List.find?_nil]
  by_cases h20 : d ≤ 20
  · simp [h20]
  · by_cases h40 : d ≤ 40
    · simp [h20, h40]
    · by_cases h80 : d ≤ 80
      · simp [h20, h40, h80]
      · simp [h20, h40, h80, Score.zero]

/-- What is within reach is worth something. -/
theorem one_le_ofDistance {d : Nat} (h : d ≤ 80) : 1 ≤ (ofDistance (some d)).halves := by
  rw [ofDistance_some]
  grind

/-- What is nearer is worth no less. -/
theorem ofDistance_anti {d d' : Nat} (h : d' ≤ d) :
    (ofDistance (some d)).halves ≤ (ofDistance (some d')).halves := by
  rw [ofDistance_some, ofDistance_some]
  grind

/-- More centres are worth no less. -/
theorem ofDistance_of_subset {index : Int} {centres centres' : List Int}
    (hsorted : centres'.Pairwise (· ≤ ·)) (hsub : centres ⊆ centres') :
    (ofDistance (distanceToNearest index centres)).halves ≤
      (ofDistance (distanceToNearest index centres')).halves := by
  cases h : distanceToNearest index centres with
  | none => exact (ofDistance_bounds _).1
  | some d =>
    obtain ⟨d', h', hle⟩ := distanceToNearest_of_subset hsorted hsub h
    rw [h']
    exact ofDistance_anti hle

/-! ### Phone shape -/

theorem freeOfSigma_phoneWords : ∀ word ∈ phoneWords, FreeOfSigma word := by decide +kernel

/-- What announces a telephone number within a window does so within a wider one. -/
theorem looksLikePhone_mono {c : Candidate} {text : Text} {window window' : Int}
    (hwindow : window ≤ window') (h : looksLikePhone c text window = true) :
    looksLikePhone c text window' = true := by
  have hstretch : slice text (max (c.first - window) 0) c.first <:+:
      slice text (max (c.first - window') 0) c.first :=
    slice_isInfix_slice text (by omega) (by omega) (Nat.le_refl _)
  simp only [looksLikePhone, Bool.or_eq_true, List.contains_iff_mem, List.any_eq_true] at h ⊢
  rcases h with (hplus | ⟨word, hword, hoccurs⟩) | hlong
  · exact .inl (.inl (hstretch.subset hplus))
  · refine .inl (.inr ⟨word, hword, ?_⟩)
    rw [occursIn_iff] at hoccurs ⊢
    exact infix_lower_of_infix (freeOfSigma_phoneWords word hword) hstretch hoccurs
  · exact .inr hlong

end Signal

/-! ### Milder surroundings -/

/-- The second surroundings are of the same text as the first, and milder to every candidate. -/
structure Surroundings.Milder (s s' : Surroundings) : Prop where
  text : s'.text = s.text
  lower : s'.lower = s.lower
  centres : s.centres ⊆ s'.centres
  ascending : s'.centres.Pairwise (· ≤ ·)
  safety : s.hasSafetyKeyword = true → s'.hasSafetyKeyword = true
  moneyIndicators : s'.moneyIndicators ⊆ s.moneyIndicators
  moneyRadius : s'.moneyRadius ≤ s.moneyRadius
  phoneWindow : s'.phoneWindow ≤ s.phoneWindow

/-- **In milder surroundings no candidate scores less.** -/
theorem Breakdown.total_le_total {s s' : Surroundings} (h : s.Milder s') (facts : LineFacts)
    (c : Candidate) :
    (ofCandidate s facts c).total.halves ≤ (ofCandidate s' facts c).total.halves := by
  have hproximity :
      (Signal.ofDistance (distanceToNearest (middle c.first c.last) s.centres)).halves ≤
        (Signal.ofDistance (distanceToNearest (middle c.first c.last) s'.centres)).halves :=
    Signal.ofDistance_of_subset h.ascending h.centres
  have hsafety : (Signal.given s.hasSafetyKeyword ⟨2⟩).halves ≤
      (Signal.given s'.hasSafetyKeyword ⟨2⟩).halves :=
    Signal.given_mono (by decide) h.safety
  have hmoney : (Signal.given (indicatorNear s.lower s.moneyIndicators c.first s.moneyRadius)
        ⟨-4⟩).halves ≤
      (Signal.given (indicatorNear s'.lower s'.moneyIndicators c.first s'.moneyRadius)
        ⟨-4⟩).halves := by
    refine Signal.given_anti (by decide) fun hnear => ?_
    rw [h.lower] at hnear
    exact indicatorNear_mono h.moneyIndicators h.moneyRadius hnear
  have hphone : (Signal.given (Signal.looksLikePhone c s.text s.phoneWindow) ⟨-5⟩).halves ≤
      (Signal.given (Signal.looksLikePhone c s'.text s'.phoneWindow) ⟨-5⟩).halves := by
    refine Signal.given_anti (by decide) fun hlooks => ?_
    rw [h.text] at hlooks
    exact Signal.looksLikePhone_mono h.phoneWindow hlooks
  -- The other six signals look at the candidate and its line only.
  rw [total_halves, total_halves]
  simp only [ofCandidate]
  omega

theorem ScoredCandidate.score_onLine_le {s s' : Surroundings} (h : s.Milder s') (facts : LineFacts)
    (c : Candidate) : (onLine s facts c).score.halves ≤ (onLine s' facts c).score.halves :=
  Breakdown.total_le_total h facts c

end Passcode
