import Passcode.Proofs.Binary64.Exact
import Passcode.Proofs.Candidate.Shapes
import Passcode.Proofs.Contest
import Passcode.Proofs.Line.Assigned
import Passcode.Proofs.Message.Limit
import Passcode.Proofs.Text.Letters

/-!
# Scores — exact sums, and bounds that no message passes

Not all good signals go together (`Breakdown.Consistent`):

* a code that is the whole line is not assigned in it, since what is assigned is shorter than the
  line (`Line.length_lt_of_mem_assignedTable`);
* a line of digits does not speak of codes (`not_speaksOfCodes_of_digits`);
* what is long enough for a telephone number gets the least that a length may give.

So a score lies between -9 and 21 halves (`Breakdown.Consistent.total_bounds`), and the rounded sum
of the signals, taken from the left, is exact (`Score.sum_toBinary64`).
-/

namespace Passcode

/-! ### What a line that is a code does not hold -/

/-- A line of digits does not speak of codes. -/
theorem not_speaksOfCodes_of_digits {t : Text} (h : ∀ c ∈ t, Text.isAsciiDigit c = true) :
    Line.codeWords.any (fun word => Text.occursLike word t) = false := by
  have hletters : ∀ word ∈ Line.codeWords,
      word.head?.any (fun p => !Text.isAsciiDigit p) = true := by decide
  rw [List.any_eq_false]
  intro word hword hoccurs
  have hletter := hletters word hword
  cases word with
  | nil => cases hletter
  | cons p ps =>
    obtain ⟨c, hc, hsame⟩ := Text.exists_of_occursLike hoccurs
    rw [Text.eq_of_sameLetter_of_digit (h c hc) hsame, List.head?_cons, Option.any_some,
      h c hc] at hletter
    cases hletter

namespace LineFacts

/-- The facts of a text that is one line. -/
def whole (text : Text) : LineFacts := .of (.cut text 0 text.length)

variable {text : Text}

theorem trimmed_whole : (whole text).trimmed = Text.trim text := by
  rw [whole, of, Line.text_cut_all]

theorem hasCodeWord_whole_of_digits (h : ∀ c ∈ text, Text.isAsciiDigit c = true) :
    (whole text).hasCodeWord = false := by
  rw [whole, of, Line.text_cut_all]
  exact not_speaksOfCodes_of_digits h

/-- A line does not assign itself. -/
theorem assigns_whole_self (hpos : 0 < text.length) (hshort : text.length ≤ Line.longestInTable) :
    (whole text).assigns text = false := by
  have hrange : (decide (0 < text.length) && decide (text.length ≤ Line.longestInTable)) =
      true := by
    rw [decide_eq_true hpos, decide_eq_true hshort, Bool.and_self]
  rw [assigns, if_pos hrange, whole, of, Line.text_cut_all]
  refine Bool.eq_false_iff.mpr fun hmem => ?_
  exact Nat.lt_irrefl _ (Line.length_lt_of_mem_assignedTable (List.contains_iff_mem.mp hmem))

end LineFacts

/-! ### The contributions taken together -/

namespace Signal

theorem given_eq_zero_or (reason : Bool) (points : Score) :
    given reason points = .zero ∨ reason = true := by
  cases reason
  · exact .inl rfl
  · exact .inr rfl

theorem given_eq_zero {reason : Bool} {points : Score} (h : reason = false) :
    given reason points = .zero := by
  rw [h]; rfl

/-- A code of three to ten characters gets at least one point for its length. -/
theorem le_ofLength {n : Int} (hlow : 3 ≤ n) (hhigh : n ≤ 10) : 2 ≤ (ofLength n).halves := by
  unfold ofLength
  split
  · decide
  · split
    · decide
    · rw [if_pos (by simp [hlow, hhigh])]

theorem ofLength_of_long {n : Int} (hlow : 9 ≤ n) (hhigh : n ≤ 10) : ofLength n = ⟨2⟩ := by
  obtain rfl | rfl : n = 9 ∨ n = 10 := by omega
  · rfl
  · rfl

end Signal

/-- The contributions of the signals to one candidate, with what each excludes of the others. -/
structure Breakdown.Consistent (b : Breakdown) : Prop where
  length : 2 ≤ b.length.halves ∧ b.length.halves ≤ 6
  numeric : 0 ≤ b.numeric.halves ∧ b.numeric.halves ≤ 1
  exactLine : 0 ≤ b.exactLine.halves ∧ b.exactLine.halves ≤ 5
  lineKeyword : 0 ≤ b.lineKeyword.halves ∧ b.lineKeyword.halves ≤ 4
  assignment : 0 ≤ b.assignment.halves ∧ b.assignment.halves ≤ 3
  keywordProximity : 0 ≤ b.keywordProximity.halves ∧ b.keywordProximity.halves ≤ 4
  safety : 0 ≤ b.safety.halves ∧ b.safety.halves ≤ 2
  money : -4 ≤ b.money.halves ∧ b.money.halves ≤ 0
  phoneShape : -5 ≤ b.phoneShape.halves ∧ b.phoneShape.halves ≤ 0
  /-- Only a long number is charged for being one, and its length is worth the least. -/
  longNumeric : b.longNumeric.halves = 0 ∨
    b.longNumeric.halves = -3 ∧ b.numeric.halves = 1 ∧ b.length.halves = 2
  /-- A code that is the whole line is not assigned in it. -/
  alone : b.exactLine = .zero ∨ b.assignment = .zero
  /-- A line that is a number does not speak of codes. -/
  wordless : b.exactLine = .zero ∨ b.numeric = .zero ∨ b.lineKeyword = .zero

/-- The total of consistent signals is from minus nine halves to twenty-one. -/
theorem Breakdown.Consistent.total_bounds {b : Breakdown} (h : b.Consistent) :
    -9 ≤ b.total.halves ∧ b.total.halves ≤ 21 := by
  have hzero : ∀ s : Score, s = .zero → s.halves = 0 := fun s hs => congrArg Score.halves hs
  have halone := h.alone.imp (hzero _) (hzero _)
  have hwordless := h.wordless.imp (hzero _) (Or.imp (hzero _) (hzero _))
  obtain ⟨⟨_, _⟩, ⟨_, _⟩, ⟨_, _⟩, ⟨_, _⟩, ⟨_, _⟩, ⟨_, _⟩, ⟨_, _⟩, ⟨_, _⟩, ⟨_, _⟩, _, -, -⟩ := h
  rw [Breakdown.total_halves]
  omega

/-- No signal gives or takes more than three points. -/
theorem Breakdown.Consistent.natAbs_le {b : Breakdown} (h : b.Consistent) :
    ∀ s ∈ b.named, s.2.halves.natAbs ≤ 6 := by
  obtain ⟨⟨_, _⟩, ⟨_, _⟩, ⟨_, _⟩, ⟨_, _⟩, ⟨_, _⟩, ⟨_, _⟩, ⟨_, _⟩, ⟨_, _⟩, ⟨_, _⟩, _, -, -⟩ := h
  intro s hs
  simp only [named, List.mem_cons, List.not_mem_nil, or_false] at hs
  rcases hs with rfl | rfl | rfl | rfl | rfl | rfl | rfl | rfl | rfl | rfl <;>
    dsimp only <;> omega

/-- The charge for a long number goes with digits and the least that a length may give. -/
theorem longNumeric_cases {c : Candidate} (hshort : c.length ≤ 10) :
    (Signal.given (Signal.isLongNumber c) ⟨-3⟩).halves = 0 ∨
      (Signal.given (Signal.isLongNumber c) ⟨-3⟩).halves = -3 ∧
        (Signal.given c.numeric ⟨1⟩).halves = 1 ∧ (Signal.ofLength c.length).halves = 2 := by
  rcases Signal.given_eq_zero_or (Signal.isLongNumber c) ⟨-3⟩ with h | hlong
  · exact .inl (congrArg Score.halves h)
  · obtain ⟨hnumeric, hnine⟩ := Bool.and_eq_true_iff.mp hlong
    have hnine' : (9 : Int) ≤ c.length := Int.ofNat_le.mpr (of_decide_eq_true hnine)
    have hshort' : (c.length : Int) ≤ 10 := Int.ofNat_le.mpr hshort
    rw [hlong, hnumeric, Signal.ofLength_of_long hnine' hshort']
    exact .inr ⟨rfl, rfl, rfl⟩

/-- The contributions to a candidate of a text without blanks at its ends, which is one line. -/
theorem consistent_of_mem {text : Text} (htrim : Text.trim text = text) {c : Candidate}
    (hc : c ∈ candidatesOf text) (s : Surroundings) :
    (Breakdown.ofCandidate s (.whole text) c).Consistent := by
  have hfound := foundIn_of_mem_candidatesOf hc
  obtain ⟨hlow, hhigh⟩ := hfound.length_bounds
  -- A code that is the trimmed line is the whole text.
  have hwhole : (Breakdown.ofCandidate s (.whole text) c).exactLine = .zero ∨ c.code = text := by
    refine (Signal.given_eq_zero_or _ _).imp_right fun h => ?_
    rw [LineFacts.trimmed_whole, htrim, beq_iff_eq] at h
    exact h.symm
  exact {
    length := ⟨Signal.le_ofLength (Int.ofNat_le.mpr hlow) (Int.ofNat_le.mpr hhigh),
      (Signal.ofLength_bounds _).2⟩
    numeric := Signal.given_bounds _ _
    exactLine := Signal.given_bounds _ _
    lineKeyword := Signal.given_bounds _ _
    assignment := Signal.given_bounds _ _
    keywordProximity := Signal.ofDistance_bounds _
    safety := Signal.given_bounds _ _
    money := Signal.given_bounds _ _
    phoneShape := Signal.given_bounds _ _
    longNumeric := longNumeric_cases hhigh
    alone := hwhole.imp_right fun htext => by
      rw [Candidate.length, htext] at hlow hhigh
      refine Signal.given_eq_zero ?_
      rw [htext]
      exact LineFacts.assigns_whole_self (Nat.lt_of_lt_of_le (by decide) hlow) hhigh
    wordless := hwhole.imp_right fun htext => by
      refine (Signal.given_eq_zero_or c.numeric _).imp_right fun hnumeric => ?_
      have hdigits := hfound.isAsciiDigit_of_numeric hnumeric
      rw [htext] at hdigits
      exact Signal.given_eq_zero (LineFacts.hasCodeWord_whole_of_digits hdigits) }

/-! ### Exact sums -/

namespace Score

open Binary64

/-- The number of a score of at most 53 bits is exact. -/
theorem isHalves_toBinary64 {s : Score} (h : s.halves.natAbs < 2 * stretchSteps) :
    s.toBinary64.IsHalves s.halves := isHalves_ofFraction h

/-- The rounded sum of scores that are small and not too many is the number of their sum. -/
theorem foldl_add_toBinary64 {bound : Nat} {scores : List Score} (start : Score)
    (hscores : ∀ s ∈ scores, s.halves.natAbs ≤ bound)
    (hstart : start.halves.natAbs + bound * scores.length < 2 * stretchSteps) :
    (scores.map toBinary64).foldl add start.toBinary64 =
      (scores.foldl (· + ·) start).toBinary64 := by
  induction scores generalizing start with
  | nil => rfl
  | cons s rest ih =>
    obtain ⟨hs, hrest⟩ := List.forall_mem_cons.mp hscores
    rw [List.length_cons, Nat.mul_succ] at hstart
    have hnext : (start + s).halves.natAbs ≤ start.halves.natAbs + s.halves.natAbs :=
      Int.natAbs_add_le start.halves s.halves
    have hstep : add start.toBinary64 s.toBinary64 = (start + s).toBinary64 :=
      add_halves (by omega) (by omega) (Nat.lt_of_le_of_lt hnext (by omega))
    rw [List.map_cons, List.foldl_cons, List.foldl_cons, hstep]
    exact ih _ hrest (by omega)

/-- **Exact sums**: the rounded sum of the contributions, taken from the left, is the number of the
score. -/
theorem sum_toBinary64 {b : Breakdown} (h : b.Consistent) :
    (b.named.map (fun s => s.2.toBinary64)).foldl add .zero = b.total.toBinary64 := by
  have hsmall : ∀ s ∈ b.named.map Prod.snd, s.halves.natAbs ≤ 6 := by
    intro s hs
    obtain ⟨entry, hentry, rfl⟩ := List.mem_map.mp hs
    exact h.natAbs_le entry hentry
  have htotal : (b.named.map Prod.snd).foldl (· + ·) Score.zero = b.total := by
    have hzero : Score.zero + b.length = b.length :=
      congrArg Score.mk (Int.zero_add b.length.halves)
    simp only [Breakdown.named, List.map_cons, List.map_nil, List.foldl_cons, List.foldl_nil,
      hzero]
    rfl
  have hten : (b.named.map Prod.snd).length = 10 := rfl
  have hfold := foldl_add_toBinary64 .zero hsmall (by rw [hten]; decide)
  rw [htotal, List.map_map] at hfold
  have hzero : Score.zero.toBinary64 = Binary64.zero := ofFraction_zero 2
  rw [hzero] at hfold
  exact hfold

end Score

namespace Detector

open Binary64

/-- **Scores are exact and bounded**: the score of each candidate in an explanation is the rounded
sum of its ten contributions, in which nothing is rounded, for the contributions and the score are
multiples of one half.  It lies between -4.5 and 10.5.  The line being the code and the code being
assigned never count both, and the length counts at least 1. -/
theorem score_exact_and_bounded (d : Detector) (hd : d.settings.WithinBounds) (raw : Text) :
    ∃ l, d.explain raw = .ok l ∧ ∀ c ∈ l.value.candidates,
      c.score.toBinary64 = (c.breakdown.named.map (fun s => s.2.toBinary64)).foldl add .zero ∧
      c.score.halves = (c.breakdown.named.map (fun s => s.2.halves)).sum ∧
      c.score.toBinary64.IsHalves c.score.halves ∧
      (∀ s ∈ c.breakdown.named, s.2.toBinary64.IsHalves s.2.halves) ∧
      -9 ≤ c.score.halves ∧ c.score.halves ≤ 21 ∧
      (ofFraction true 9 2).le c.score.toBinary64 = true ∧
      c.score.toBinary64.le (ofFraction false 21 2) = true ∧
      (c.breakdown.exactLine = .zero ∨ c.breakdown.assignment = .zero) ∧
      2 ≤ c.breakdown.length.halves ∧ one.le c.breakdown.length.toBinary64 = true := by
  obtain ⟨l, hexplain, -, hcandidates, -⟩ := exists_explanation hd raw
  refine ⟨l, hexplain, fun c hc => ?_⟩
  rw [hcandidates, scoresOf_onLine] at hc
  obtain ⟨candidate, hmem, rfl⟩ := List.mem_map.mp hc
  have hnormal : Text.IsNormal (d.messageOf raw).text :=
    (Text.isNormal_canonical raw).cut (some d.settings.maxMessageLength)
  have hconsistent := consistent_of_mem hnormal.trim_eq hmem (d.surroundingsOf raw)
  rw [LineFacts.whole] at hconsistent
  simp only [ScoredCandidate.onLine]
  generalize Breakdown.ofCandidate _ _ _ = b at hconsistent ⊢
  obtain ⟨hlow, hhigh⟩ := hconsistent.total_bounds
  have hsmall := hconsistent.natAbs_le
  refine ⟨(Score.sum_toBinary64 hconsistent).symm, ?_, ?_, ?_, hlow, hhigh, ?_, ?_,
    hconsistent.alone, hconsistent.length.1, ?_⟩
  · rw [Breakdown.total_halves]
    simp only [Breakdown.named, List.map_cons, List.map_nil, List.sum_cons, List.sum_nil]
    omega
  · exact Score.isHalves_toBinary64 (Nat.lt_of_le_of_lt (by omega : _ ≤ 21) (by decide))
  · exact fun s hs => Score.isHalves_toBinary64 (Nat.lt_of_le_of_lt (hsmall s hs) (by decide))
  · have hleast : ofFraction true 9 2 = Score.toBinary64 ⟨-9⟩ := by decide +kernel
    rw [hleast]
    exact Score.toBinary64_le hlow
  · have hgreatest : ofFraction false 21 2 = Score.toBinary64 ⟨21⟩ := by decide +kernel
    rw [hgreatest]
    exact Score.toBinary64_le hhigh
  · have hone : one = Score.toBinary64 ⟨2⟩ := by decide +kernel
    rw [hone]
    exact Score.toBinary64_le hconsistent.length.1

/-- A detector with the default settings for which "otp" is an OTP keyword and a safety keyword. -/
def doubly : Detector :=
  .of .default
    (.given { otp := ["otp".toList], safety := ["otp".toList], money := [], parcel := [] }
      (fun _ => none))

/-- A token that is a whole message, and speaks of codes, has the greatest score there is. -/
theorem score_greatest :
    doubly.settings.WithinBounds ∧
      ∃ l, doubly.explain "otp123".toList = .ok l ∧ ∃ c ∈ l.value.candidates,
        c.score.toBinary64 = ofFraction false 21 2 ∧
          c.score.toBinary64 =
            (c.breakdown.named.map (fun s => s.2.toBinary64)).foldl add .zero ∧
              c.breakdown.exactLine ≠ .zero ∧ c.breakdown.assignment = .zero := by
  have hd : doubly.settings.WithinBounds := Settings.withinBounds_default
  have hgreatest : ∃ c ∈ doubly.scoresOf "otp123".toList,
      c.score = ⟨21⟩ ∧ c.breakdown.exactLine = ⟨5⟩ := by decide +kernel
  obtain ⟨l, hexplain, hscores⟩ := score_exact_and_bounded doubly hd "otp123".toList
  obtain ⟨l', hexplain', -, hcandidates, -⟩ := exists_explanation hd "otp123".toList
  cases hexplain.symm.trans hexplain'
  obtain ⟨c, hc, hscore, hline⟩ := hgreatest
  obtain ⟨hsum, -, -, -, -, -, -, -, halone, -⟩ := hscores c (hcandidates ▸ hc)
  have hnotZero : c.breakdown.exactLine ≠ .zero := by rw [hline]; decide
  exact ⟨hd, l, hexplain, c, hcandidates ▸ hc, by rw [hscore]; rfl, hsum, hnotZero,
    halone.resolve_left hnotZero⟩

end Detector

end Passcode
