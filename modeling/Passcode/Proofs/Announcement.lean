import Mathlib.Data.List.Infix
import Passcode.Proofs.Candidate.Frame
import Passcode.Proofs.Eagerness
import Passcode.Proofs.Message.Framed
import Passcode.Proofs.Scores
import Passcode.Proofs.Text.Lowercase.Aligned

/-!
# Announcements — texts that make a one-time code of the digits between them

Two texts announce a code to a detector (`Detector.Announces`) if a code between them is the only
candidate, their line speaks of codes, an OTP keyword stands in one of them, and neither a money
indicator nor what announces a telephone number does.

Which digits are announced, and how many, moves the middle of the span, the windows of the money and
phone signals and the points for the length.  None of it matters:

* No keyword centre is more than 80 characters away, for the message is no longer than that
  (`Announces.le_proximity`).
* A money indicator within any radius would stand in one of the two texts, for it has no digits
  (`Announces.not_money`).
* What stands before the code within any window is the end of the first text
  (`Announces.not_phone`).

So a code of three to eight digits scores at least 4 (`Announces.le_score`), and a detector reports
it that is content with 4 and an OTP keyword (`detect_announced`).
-/

namespace Passcode

open Binary64 Text

theorem ne_nil_of_three_le {code : Text} (h : 3 ≤ code.length) : code ≠ [] :=
  List.ne_nil_of_length_pos (Nat.lt_of_lt_of_le (by decide) h)

/-! ### The lowercase copy -/

theorem lowerKept_of_digit {c : Char} (h : isAsciiDigit c = true) : lowerKept c = c :=
  of_digit (P := fun c => lowerKept c = c) (by decide +kernel) h

/-- The lowercase copy of texts without capital sigmas and the digits between them. -/
theorem lowerAligned_around {before code after : Text}
    (hcode : ∀ c ∈ code, isAsciiDigit c = true) (hbefore : capitalSigma ∉ before)
    (hafter : capitalSigma ∉ after) :
    lowerAligned (before ++ code ++ after) =
      before.map lowerKept ++ code ++ after.map lowerKept := by
  have hdigits : code.map lowerKept = code :=
    (List.map_congr_left fun c hc => lowerKept_of_digit (hcode c hc)).trans (List.map_id code)
  have hfree : capitalSigma ∉ before ++ code ++ after := by
    intro hmem
    rcases List.mem_append.mp hmem with hmem | hmem
    · rcases List.mem_append.mp hmem with hmem | hmem
      · exact hbefore hmem
      · exact absurd (hcode _ hmem) (by decide)
    · exact hafter hmem
  rw [lowerAligned_eq_map hfree, List.map_append, List.map_append, hdigits]

namespace Detector

/-! ### Announcements -/

/-- A code between the two texts is announced to the detector. -/
structure Announces (d : Detector) (before after : Text) : Prop where
  frame : IsFrame before after
  /-- With a digit between them the texts are in normal form. -/
  normal : canonical (before ++ ['0'] ++ after) = before ++ ['0'] ++ after
  /-- With eight digits between them the texts are no longer than a keyword reaches. -/
  short : before.length + 8 + after.length ≤ 80
  limit : 80 ≤ d.settings.maxMessageLength
  noSigmas : capitalSigma ∉ before ∧ capitalSigma ∉ after
  line : ∃ word ∈ Line.codeWords, (occursLike word before || occursLike word after) = true
  keyword : (containsAny (before.map lowerKept) d.otp.items ||
    containsAny (after.map lowerKept) d.otp.items) = true
  noMoney : ∀ word ∈ d.money.items, DigitFree word ∧
    ¬ word <:+: before.map lowerKept ∧ ¬ word <:+: after.map lowerKept
  noPlus : '+' ∉ before
  noPhone : ∀ word ∈ Signal.phoneWords, ¬ word <:+: lower before

instance (d : Detector) (before after : Text) : Decidable (d.Announces before after) :=
  decidable_of_iff
    (IsFrame before after ∧ canonical (before ++ ['0'] ++ after) = before ++ ['0'] ++ after ∧
      before.length + 8 + after.length ≤ 80 ∧ 80 ≤ d.settings.maxMessageLength ∧
      (capitalSigma ∉ before ∧ capitalSigma ∉ after) ∧
      (∃ word ∈ Line.codeWords, (occursLike word before || occursLike word after) = true) ∧
      (containsAny (before.map lowerKept) d.otp.items ||
        containsAny (after.map lowerKept) d.otp.items) = true ∧
      (∀ word ∈ d.money.items, DigitFree word ∧
        ¬ word <:+: before.map lowerKept ∧ ¬ word <:+: after.map lowerKept) ∧
      '+' ∉ before ∧ ∀ word ∈ Signal.phoneWords, ¬ word <:+: lower before)
    ⟨fun ⟨h₁, h₂, h₃, h₄, h₅, h₆, h₇, h₈, h₉, h₁₀⟩ => ⟨h₁, h₂, h₃, h₄, h₅, h₆, h₇, h₈, h₉, h₁₀⟩,
      fun ⟨h₁, h₂, h₃, h₄, h₅, h₆, h₇, h₈, h₉, h₁₀⟩ => ⟨h₁, h₂, h₃, h₄, h₅, h₆, h₇, h₈, h₉, h₁₀⟩⟩

namespace Announces

variable {d : Detector} {before code after : Text} (h : d.Announces before after)
  (hcode : ∀ c ∈ code, isAsciiDigit c = true) (hlow : 3 ≤ code.length) (hhigh : code.length ≤ 8)

include hhigh in
/-- A framed code is no long number. -/
theorem not_isLongNumber :
    Signal.isLongNumber (.ofRun .numeric true (framedRun before code after)) = false := by
  refine decide_eq_false ?_
  show ¬ 9 ≤ code.length
  omega

include h

include hhigh in
/-- What stands before the code is no announcement of a telephone number. -/
theorem not_phone (window : Int) :
    Signal.looksLikePhone (.ofRun .numeric true (framedRun before code after))
      (before ++ code ++ after) window = false := by
  have hstretch : slice (before ++ code ++ after) (max ((before.length : Int) - window) 0)
      before.length <:+ before := by
    have htake : (before ++ code ++ after).take before.length = before := by
      rw [List.append_assoc, List.take_left]
    have hbound : boundOf (before ++ code ++ after).length before.length = before.length := by
      rw [boundOf_natCast, List.append_assoc, List.length_append]
      omega
    rw [slice, hbound, htake]
    exact List.drop_suffix _ _
  refine Bool.eq_false_iff.mpr fun hlooks => ?_
  simp only [Signal.looksLikePhone, not_isLongNumber hhigh, Bool.or_false, Bool.or_eq_true,
    List.contains_iff_mem, List.any_eq_true] at hlooks
  rcases hlooks with hplus | ⟨word, hword, hoccurs⟩
  · exact h.noPlus (hstretch.mem hplus)
  · have hsigmas := Signal.freeOfSigma_phoneWords word hword
    refine h.noPhone word hword ?_
    exact infix_lower_of_infix hsigmas hstretch.isInfix (occursIn_iff.mp hoccurs)

include hhigh in
theorem length_le : (before ++ code ++ after).length ≤ 80 := by
  have := h.short
  rw [List.length_append, List.length_append]
  omega

include hcode hlow

/-- The line of the code speaks of codes. -/
theorem hasCodeWord : (LineFacts.whole (before ++ code ++ after)).hasCodeWord = true := by
  have hwords : ∀ word ∈ Line.codeWords, word ≠ [] ∧ DigitFree word := by decide
  have hne := ne_nil_of_three_le hlow
  obtain ⟨word, hmem, hoccurs⟩ := h.line
  obtain ⟨hword, hfree⟩ := hwords word hmem
  rw [LineFacts.whole, LineFacts.of, Line.text_cut_all]
  exact List.any_eq_true.mpr
    ⟨word, hmem, (occursLike_around hfree hword hcode hne before after).trans hoccurs⟩

include hhigh

/-- The text of an announcement is the announcement itself. -/
theorem text_messageOf :
    (d.messageOf (before ++ code ++ after)).text = before ++ code ++ after := by
  have hne := ne_nil_of_three_le hlow
  refine Message.text_ofText_self (canonical_around hcode hne h.normal) fun n hn => ?_
  cases hn
  exact Int.ofNat_le.mpr (Nat.le_trans (h.length_le hhigh) h.limit)

/-- Its lowercase copy has the code as it is. -/
theorem lower_messageOf : (d.messageOf (before ++ code ++ after)).lower =
    before.map lowerKept ++ code ++ after.map lowerKept := by
  show lowerAligned (d.messageOf (before ++ code ++ after)).text = _
  rw [h.text_messageOf hcode hlow hhigh,
    lowerAligned_around hcode h.noSigmas.1 h.noSigmas.2]

/-- An OTP keyword stands in the lowercase copy. -/
theorem exists_keyword :
    ∃ k ∈ d.otp.items, k ≠ [] ∧ k <:+: (d.messageOf (before ++ code ++ after)).lower := by
  rw [h.lower_messageOf hcode hlow hhigh]
  rcases Bool.or_eq_true_iff.mp h.keyword with hk | hk
  · obtain ⟨k, hmem, hne, hin⟩ := containsAny_iff.mp hk
    refine ⟨k, hmem, hne, hin.trans ?_⟩
    rw [List.append_assoc]
    exact (List.prefix_append _ _).isInfix
  · obtain ⟨k, hmem, hne, hin⟩ := containsAny_iff.mp hk
    exact ⟨k, hmem, hne, hin.trans (List.suffix_append _ _).isInfix⟩

/-- An announcement raises the flag for keywords. -/
theorem otp_flagsOf : (d.flagsOf (d.messageOf (before ++ code ++ after))).otp = true :=
  containsAny_iff.mpr (h.exists_keyword hcode hlow hhigh)

/-! ### The signals -/

/-- Some keyword centre is near enough to count. -/
theorem le_proximity {index : Int} (hindex : 0 ≤ index ∧ index ≤ 80) :
    1 ≤ (Signal.ofDistance (distanceToNearest index
      (d.surroundingsOf (before ++ code ++ after)).centres)).halves := by
  obtain ⟨k, hk, hne, hin⟩ := h.exists_keyword hcode hlow hhigh
  obtain ⟨c, hc, hle⟩ := exists_centre hk hne hin
  have hsorted : (d.surroundingsOf (before ++ code ++ after)).centres.Pairwise (· ≤ ·) :=
    List.pairwise_map.mpr ((keywordCentres_pairwise _ _).imp fun hle => Int.ofNat_le.mpr hle)
  obtain ⟨n, hn, hnear⟩ : ∃ n, distanceToNearest index
      (d.surroundingsOf (before ++ code ++ after)).centres = some n ∧ n ≤ (index - c).natAbs :=
    distanceToNearest_le hsorted (List.mem_map_of_mem hc)
  have hlength : (d.messageOf (before ++ code ++ after)).lower.length ≤ 80 := by
    have := h.length_le hhigh
    rw [h.lower_messageOf hcode hlow hhigh]
    simpa using this
  rw [hn]
  exact Signal.one_le_ofDistance (by omega)

/-- No money indicator is near. -/
theorem not_money (index radius : Int) :
    indicatorNear (d.surroundingsOf (before ++ code ++ after)).lower d.money.items index radius =
      false := by
  have hne := ne_nil_of_three_le hlow
  refine Bool.eq_false_iff.mpr fun hnear => ?_
  unfold indicatorNear at hnear
  dsimp only at hnear
  split at hnear
  · cases hnear
  · obtain ⟨word, hmem, -, hin⟩ := containsAny_iff.mp hnear
    obtain ⟨hfree, hbefore, hafter⟩ := h.noMoney word hmem
    have hlower := hin.trans (Text.slice_infix _ _ _)
    rw [surroundingsOf, h.lower_messageOf hcode hlow hhigh] at hlower
    exact (infix_around hfree hcode hne hlower).elim hbefore hafter

/-- **An announced code scores at least 4.** -/
theorem le_score :
    8 ≤ (Breakdown.ofCandidate (d.surroundingsOf (before ++ code ++ after))
      (.whole (before ++ code ++ after))
      (.ofRun .numeric true (framedRun before code after))).total.halves := by
  set c : Candidate := .ofRun .numeric true (framedRun before code after)
  set s := d.surroundingsOf (before ++ code ++ after)
  set facts := LineFacts.whole (before ++ code ++ after)
  -- What the code gains:
  have hlength : 2 ≤ (Signal.ofLength c.length).halves :=
    Signal.le_ofLength (Int.ofNat_le.mpr hlow) (Int.ofNat_le.mpr (Nat.le_trans hhigh (by decide)))
  have hnumeric : (Signal.given c.numeric ⟨1⟩).halves = 1 := rfl
  have hword : (Signal.given facts.hasCodeWord ⟨4⟩).halves = 4 := by
    rw [h.hasCodeWord hcode hlow]; rfl
  have hproximity : 1 ≤
      (Signal.ofDistance (distanceToNearest (middle c.first c.last) s.centres)).halves := by
    refine h.le_proximity hcode hlow hhigh ?_
    have hshort := h.short
    have hfirst : c.first = before.length := rfl
    have hlast : c.last = before.length + code.length - 1 := rfl
    rw [middle, hfirst, hlast]
    omega
  -- What may be added, and what is not taken away:
  have hexact := (Signal.given_bounds (facts.trimmed == c.code) 5).1
  have hassigned := (Signal.given_bounds (facts.assigns c.code) 3).1
  have hsafety := (Signal.given_bounds s.hasSafetyKeyword 2).1
  have hlong : (Signal.given (Signal.isLongNumber c) ⟨-3⟩).halves = 0 :=
    congrArg Score.halves (Signal.given_eq_zero (not_isLongNumber hhigh))
  have hmoney : (Signal.given (indicatorNear s.lower s.moneyIndicators c.first s.moneyRadius)
      ⟨-4⟩).halves = 0 :=
    congrArg Score.halves (Signal.given_eq_zero (h.not_money hcode hlow hhigh _ _))
  have hphone : (Signal.given (Signal.looksLikePhone c s.text s.phoneWindow) ⟨-5⟩).halves = 0 := by
    have htext : s.text = before ++ code ++ after := h.text_messageOf hcode hlow hhigh
    rw [htext]
    exact congrArg Score.halves (Signal.given_eq_zero (h.not_phone hhigh _))
  rw [Breakdown.total_halves]
  simp only [Breakdown.ofCandidate]
  omega

end Announces

/-! ### Detection -/

/-- **A code that is announced to a detector is reported**, if the detector is content with an OTP
keyword and a score of 4. -/
theorem detect_announced {d : Detector} (hd : d.settings.WithinBounds)
    (hn : d.settings.calibration.AllNumbers)
    (hcontent : d.settings.calibration.threshold.le
      (d.settings.calibration.confidence ⟨true, false, false, false⟩ (Score.toBinary64 ⟨8⟩)) = true)
    {before code after : Text} (h : d.Announces before after)
    (hcode : ∀ c ∈ code, isAsciiDigit c = true) (hlow : 3 ≤ code.length)
    (hhigh : code.length ≤ 8) :
    ∃ l, d.detect (before ++ code ++ after) = .ok l ∧ l.value.isOtp = true ∧
      l.value.code = some code := by
  have hne := ne_nil_of_three_le hlow
  have htext := h.text_messageOf hcode hlow hhigh
  have hcandidates : candidatesOf (d.messageOf (before ++ code ++ after)).text =
      [.ofRun .numeric true (framedRun before code after)] := by
    rw [htext]
    exact candidatesOf_frame h.frame hne hcode hlow (Nat.le_trans hhigh (by decide))
  have hscores : d.scoresOf (before ++ code ++ after) =
      [.onLine (d.surroundingsOf (before ++ code ++ after)) (.whole (before ++ code ++ after))
        (.ofRun .numeric true (framedRun before code after))] := by
    rw [scoresOf_onLine, hcandidates, htext]
    rfl
  obtain ⟨w, entries, hw, hexplain⟩ :=
    explain_of_candidates hd (by rw [hcandidates]; exact List.cons_ne_nil _ _)
  have hfinite := isFinite_score (winner?_max hw).1
  rw [hscores] at hw
  obtain rfl := Option.some.inj hw
  -- The flags of the message are the OTP flag and maybe more.
  have hflags : Flags.Below ⟨true, false, false, false⟩
      (d.flagsOf (d.messageOf (before ++ code ++ after))) :=
    ⟨fun _ => h.otp_flagsOf hcode hlow hhigh, nofun, nofun, nofun⟩
  have hotp := le_trans hcontent (CalibrationSettings.confidence_mono hd.calibration hn hflags
    (Score.isFinite_toBinary64 (by decide) (by decide)) hfinite
    (Score.toBinary64_le (h.le_score hcode hlow hhigh)))
  refine ⟨⟨entries, d.verdictOn (d.flagsOf (d.messageOf (before ++ code ++ after))) _⟩,
    ?_, hotp, ?_⟩
  · rw [detect, hexplain]
    rfl
  · exact if_pos (Bool.or_eq_true_iff.mpr (.inl hotp))

end Detector

end Passcode
