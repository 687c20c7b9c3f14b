import Mathlib.Data.List.Forall2
import Passcode.Proofs.Binary64.Sums
import Passcode.Proofs.Contest
import Passcode.Proofs.Decision
import Passcode.Proofs.Keyword.List
import Passcode.Proofs.Signals

/-!
# Eagerness — what more keywords and fewer objections can change

A detector is no less eager than another (`Detector.NoLessEager`) if it has the OTP, safety and
parcel keywords of the other and maybe more, no money indicators but those of the other, and no
greater money radius and phone window; the length limit, the scale and the boosts are the same.

Nothing that a message says moves the other way (`explain_no_less_eager`): the candidates are the
same, for they do not depend on keywords; none of them scores less, since the surroundings are
milder (`NoLessEager.surroundingsOf_milder`); every flag stays (`Flags.of_below`), so the boost does
not shrink, and neither does the confidence.
-/

namespace Passcode

open Binary64

/-! ### Flags -/

namespace Flags

/-- The second flags have every flag that the first have. -/
structure Below (f g : Flags) : Prop where
  otp : f.otp = true → g.otp = true
  safety : f.safety = true → g.safety = true
  cjk : f.cjk = true → g.cjk = true
  parcel : f.parcel = true → g.parcel = true

/-- Flags that are above others speak of codes if those do. -/
theorem Below.speaksOfCodes {f g : Flags} (h : f.Below g) (hf : f.speaksOfCodes = true) :
    g.speaksOfCodes = true := by
  rcases Bool.or_eq_true_iff.mp hf with hf | hf
  · exact Bool.or_eq_true_iff.mpr (.inl (h.otp hf))
  · exact Bool.or_eq_true_iff.mpr (.inr (h.cjk hf))

/-- More keywords set no fewer flags. -/
theorem of_below {lower : Text} {otp otp' safety safety' parcel parcel' : List Text}
    (hotp : otp ⊆ otp') (hsafety : safety ⊆ safety') (hparcel : parcel ⊆ parcel') :
    (Flags.of lower otp safety parcel).Below (Flags.of lower otp' safety' parcel') where
  otp := containsAny_mono (List.infix_refl lower) hotp
  safety := containsAny_mono (List.infix_refl lower) hsafety
  cjk := id
  parcel h := by
    rcases Bool.or_eq_true_iff.mp h with h | h
    · exact Bool.or_eq_true_iff.mpr (.inl (containsAny_mono (List.infix_refl lower) hparcel h))
    · exact Bool.or_eq_true_iff.mpr (.inr h)

end Flags

/-! ### Confidence under more flags -/

namespace CalibrationSettings

variable {c : CalibrationSettings}

/-- A boost that is given for more reasons, to a sum that is no less, makes a sum no less. -/
theorem add_if_mono {reason reason' : Bool} {boost sum sum' : Binary64}
    (hboost : zero.le boost = true) (hreason : reason = true → reason' = true)
    (hsum : zero.le sum = true ∧ sum.le sum' = true) :
    zero.le (if reason then sum.add boost else sum) = true ∧
      (if reason then sum.add boost else sum).le (if reason' then sum'.add boost else sum') =
        true := by
  have hself : boost.le boost = true := le_refl (le_iff.mp hboost).2.1
  have hsum' := le_trans hsum.1 hsum.2
  cases reason with
  | false =>
    cases reason' with
    | false => exact hsum
    | true => exact ⟨hsum.1, le_trans hsum.2 (le_add_right hsum' hboost)⟩
  | true =>
    rw [hreason rfl]
    exact ⟨add_nonneg hsum.1 hboost, add_mono hsum.1 hboost hsum.2 hself⟩

/-- More flags give no smaller boost. -/
theorem boost_le_boost (h : c.WithinBounds) (hn : c.AllNumbers) {f g : Flags} (hfg : f.Below g) :
    (c.boost f).le (c.boost g) = true :=
  (add_if_mono (zero_le_of_passesUnit hn.parcelBoost h.parcelBoost) hfg.parcel
    (add_if_mono (zero_le_of_passesUnit hn.safetyBoost h.safetyBoost) hfg.safety
      (add_if_mono (zero_le_of_passesUnit hn.keywordBoost h.keywordBoost) hfg.speaksOfCodes
        ⟨le_refl zero_ne_nan, le_refl zero_ne_nan⟩))).2

/-- A score that is no less gives no less confidence under more flags. -/
theorem confidence_mono (h : c.WithinBounds) (hn : c.AllNumbers) {f g : Flags} (hfg : f.Below g)
    {x y : Binary64} (hx : x.isFinite = true) (hy : y.isFinite = true) (hxy : x.le y = true) :
    (c.confidence f x).le (c.confidence g y) = true :=
  clamp_le_clamp (add_mono (clamp_unit _).1 (boost_nonneg h hn f)
    (clamp_le_clamp (div_le_div hx hy hn.scale h.scale hxy)) (boost_le_boost h hn hfg))

end CalibrationSettings

/-! ### Detectors -/

namespace Detector

/-- The second detector has no fewer OTP, safety and parcel keywords than the first, no more money
indicators, and no greater money radius and phone window.  Thresholds are not compared. -/
structure NoLessEager (d d' : Detector) : Prop where
  maxMessageLength : d'.settings.maxMessageLength = d.settings.maxMessageLength
  calibration : ∃ threshold, d'.settings.calibration = { d.settings.calibration with threshold }
  moneyRadius : d'.settings.moneyRadius ≤ d.settings.moneyRadius
  phoneWindow : d'.settings.phoneWindow ≤ d.settings.phoneWindow
  otp : d.otp.items ⊆ d'.otp.items
  safety : d.safety.items ⊆ d'.safety.items
  parcel : d.parcel.items ⊆ d'.parcel.items
  money : d'.money.items ⊆ d.money.items

/-- Words that are added to the three lists of keywords, and taken from the money indicators, of a
vocabulary make no detector less eager. -/
theorem noLessEager_of {s s' : Settings} {v v' : Vocabulary}
    (hlength : s'.maxMessageLength = s.maxMessageLength)
    (hcalibration : ∃ threshold, s'.calibration = { s.calibration with threshold })
    (hradius : s'.moneyRadius ≤ s.moneyRadius) (hwindow : s'.phoneWindow ≤ s.phoneWindow)
    (hotp : v.lists.otp ⊆ v'.lists.otp) (hsafety : v.lists.safety ⊆ v'.lists.safety)
    (hparcel : v.lists.parcel ⊆ v'.lists.parcel) (hmoney : v'.lists.money ⊆ v.lists.money) :
    (Detector.of s v).NoLessEager (Detector.of s' v') where
  maxMessageLength := hlength
  calibration := hcalibration
  moneyRadius := hradius
  phoneWindow := hwindow
  otp := KeywordList.of_subset hotp
  safety := KeywordList.of_subset hsafety
  parcel := KeywordList.of_subset hparcel
  money := KeywordList.of_subset hmoney

theorem exists_of_forall₂ {α β : Type} {R : α → β → Prop} {xs : List α} {ys : List β}
    (h : List.Forall₂ R xs ys) {x : α} (hx : x ∈ xs) : ∃ y ∈ ys, R x y := by
  induction h with
  | nil => cases hx
  | cons hxy _ ih =>
    rcases List.mem_cons.mp hx with rfl | hx
    · exact ⟨_, List.mem_cons_self, hxy⟩
    · obtain ⟨y, hy, hR⟩ := ih hx
      exact ⟨y, List.mem_cons_of_mem _ hy, hR⟩

namespace NoLessEager

variable {d d' : Detector} (h : d.NoLessEager d') (raw : Text)

include h

theorem messageOf_eq : d'.messageOf raw = d.messageOf raw := by
  rw [Detector.messageOf, Detector.messageOf, h.maxMessageLength]

/-- The more eager detector raises all flags that the other one does. -/
theorem flagsOf_below (m : Message) : (d.flagsOf m).Below (d'.flagsOf m) :=
  Flags.of_below h.otp h.safety h.parcel

/-- The more eager detector sees nothing around a candidate that speaks more against it. -/
theorem surroundingsOf_milder : (d.surroundingsOf raw).Milder (d'.surroundingsOf raw) where
  text := congrArg Message.text (h.messageOf_eq raw)
  lower := congrArg Message.lower (h.messageOf_eq raw)
  centres := by
    rw [surroundingsOf, surroundingsOf, h.messageOf_eq raw]
    exact List.map_subset _ (keywordCentres_subset h.otp)
  ascending := List.pairwise_map.mpr
    ((keywordCentres_pairwise _ _).imp fun hle => Int.ofNat_le.mpr hle)
  safety := by
    rw [surroundingsOf, surroundingsOf, h.messageOf_eq raw]
    exact (h.flagsOf_below _).safety
  moneyIndicators := h.money
  moneyRadius := Int.ofNat_le.mpr h.moneyRadius
  phoneWindow := Int.ofNat_le.mpr h.phoneWindow

/-- The candidates are the same, in the same order, and none scores less. -/
theorem forall₂_scoresOf :
    List.Forall₂ (fun s s' => s'.candidate = s.candidate ∧ s.score.halves ≤ s'.score.halves)
      (d.scoresOf raw) (d'.scoresOf raw) := by
  rw [scoresOf_onLine, scoresOf_onLine, h.messageOf_eq raw, List.forall₂_map_left_iff,
    List.forall₂_map_right_iff]
  exact List.forall₂_same.mpr fun c _ =>
    ⟨rfl, ScoredCandidate.score_onLine_le (h.surroundingsOf_milder raw) _ c⟩

/-- The winner of the more eager detector scores no less than that of the other. -/
theorem score_winner_le {w w' : ScoredCandidate} (hw : winner? (d.scoresOf raw) = some w)
    (hw' : winner? (d'.scoresOf raw) = some w') : w.score.halves ≤ w'.score.halves := by
  obtain ⟨s', hs', -, hle⟩ := exists_of_forall₂ (h.forall₂_scoresOf raw) (winner?_max hw).1
  exact Int.le_trans hle ((winner?_max hw').2 s' hs')

/-- The same confidence function belongs to both detectors. -/
theorem confidence_eq (flags : Flags) (score : Binary64) :
    d'.settings.calibration.confidence flags score =
      d.settings.calibration.confidence flags score := by
  obtain ⟨threshold, hcalibration⟩ := h.calibration
  rw [hcalibration]
  rfl

end NoLessEager

/-- **More keywords and fewer objections never speak against a code.**  On every message, of two
detectors one of which is no less eager, both have an explanation; the candidates are the same in
the same order, and none of them scores less; the confidence is no less; and if the threshold is no
greater, what is a one-time code to the one is a one-time code to the other. -/
theorem explain_no_less_eager (d d' : Detector) (hd : d.settings.WithinBounds)
    (hd' : d'.settings.WithinBounds) (hn : d.settings.calibration.AllNumbers)
    (h : d.NoLessEager d') (raw : Text) :
    ∃ l l', d.explain raw = .ok l ∧ d'.explain raw = .ok l' ∧
      List.Forall₂ (fun s s' => s'.candidate = s.candidate ∧ s.score.halves ≤ s'.score.halves)
        l.value.candidates l'.value.candidates ∧
      l.value.verdict.confidence.le l'.value.verdict.confidence = true ∧
      (d'.settings.calibration.threshold.le d.settings.calibration.threshold = true →
        l.value.verdict.isOtp = true → l'.value.verdict.isOtp = true) := by
  have hmessage := h.messageOf_eq raw
  by_cases ht : (d.messageOf raw).text = []
  · exact ⟨_, _, explain_of_empty ht, explain_of_empty (by rw [hmessage]; exact ht), .nil,
      le_refl zero_ne_nan, fun _ hotp => absurd hotp Bool.false_ne_true⟩
  · by_cases hc : candidatesOf (d.messageOf raw).text = []
    · obtain ⟨_, hexplain⟩ := explain_of_no_candidates ht hc
      obtain ⟨_, hexplain'⟩ := explain_of_no_candidates (d := d') (by rw [hmessage]; exact ht)
        (by rw [hmessage]; exact hc)
      exact ⟨_, _, hexplain, hexplain', .nil, le_refl (le_iff.mp lowConfidence_unit.1).2.1,
        fun _ hotp => absurd hotp Bool.false_ne_true⟩
    · obtain ⟨w, _, hw, hexplain⟩ := explain_of_candidates hd hc
      obtain ⟨w', _, hw', hexplain'⟩ := explain_of_candidates (d := d') hd'
        (by rw [hmessage]; exact hc)
      have hconfidence : (d.verdictOn (d.flagsOf (d.messageOf raw)) w).confidence.le
          (d'.verdictOn (d'.flagsOf (d'.messageOf raw)) w').confidence = true := by
        rw [verdictOn_confidence, verdictOn_confidence, h.confidence_eq, hmessage]
        exact CalibrationSettings.confidence_mono hd.calibration hn (h.flagsOf_below _)
          (isFinite_score (winner?_max hw).1) (isFinite_score (winner?_max hw').1)
          (Score.toBinary64_le (h.score_winner_le raw hw hw'))
      refine ⟨_, _, hexplain, hexplain', ?_⟩
      dsimp only
      exact ⟨h.forall₂_scoresOf raw, hconfidence, fun hthreshold hotp =>
        le_trans hthreshold (le_trans hotp hconfidence)⟩

/-- A detector with two money indicators and the default settings. -/
def wary : Detector :=
  .of .default (.given { otp := ["otp".toList], safety := [], money := ["rs".toList, "usd".toList],
                         parcel := [] } (fun _ => none))

/-- The settings with a smaller money radius, a smaller phone window and the threshold 0.5. -/
def eagerSettings : Settings :=
  { Settings.default with
    moneyRadius := 10
    phoneWindow := 3
    calibration := { Settings.default.calibration with threshold := .ofDecimal false 5 (-1) } }

/-- A detector with one of the two money indicators and more keywords of every kind. -/
def eager : Detector :=
  .of eagerSettings (.given { otp := ["code".toList, "otp".toList], safety := ["share".toList],
                              money := ["rs".toList], parcel := ["pickup".toList] }
    (fun _ => none))

theorem wary_noLessEager_eager : wary.NoLessEager eager :=
  noLessEager_of rfl ⟨_, rfl⟩ (by decide) (by decide) (by decide +kernel) (by decide +kernel)
    (by decide +kernel) (by decide +kernel)

theorem eagerSettings_withinBounds : eagerSettings.WithinBounds :=
  have h := Settings.withinBounds_default.calibration
  ⟨by decide, by decide,
    ⟨h.scale, ⟨by decide +kernel, by decide +kernel⟩, h.keywordBoost, h.safetyBoost,
      h.parcelBoost⟩⟩

/-- A telephone prefix, an amount and a safety keyword: three signals differ here. -/
theorem explain_no_less_eager_wary :
    wary.settings.WithinBounds ∧ eager.settings.WithinBounds ∧
      wary.settings.calibration.AllNumbers ∧ wary.NoLessEager eager ∧
        eager.settings.calibration.threshold.le wary.settings.calibration.threshold = true ∧
          ∃ l l', wary.explain "USD 40: call 482911 code, do not share".toList = .ok l ∧
            eager.explain "USD 40: call 482911 code, do not share".toList = .ok l' ∧
              l.value.verdict.confidence.le l'.value.verdict.confidence = true ∧
                (l.value.verdict.isOtp = true → l'.value.verdict.isOtp = true) := by
  have hthreshold : eager.settings.calibration.threshold.le
      wary.settings.calibration.threshold = true := by decide +kernel
  obtain ⟨l, l', hexplain, hexplain', -, hconfidence, hotp⟩ :=
    explain_no_less_eager wary eager Settings.withinBounds_default eagerSettings_withinBounds
      plain_allNumbers wary_noLessEager_eager "USD 40: call 482911 code, do not share".toList
  exact ⟨Settings.withinBounds_default, eagerSettings_withinBounds, plain_allNumbers,
    wary_noLessEager_eager, hthreshold, l, l', hexplain, hexplain', hconfidence, hotp hthreshold⟩

end Detector

end Passcode
