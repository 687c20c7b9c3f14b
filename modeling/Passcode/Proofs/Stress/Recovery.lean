import Passcode.Proofs.Announcement
import Passcode.Proofs.Stress.Draws
import Passcode.Proofs.Vocabulary.Taken
import Passcode.Settings.Leaf

/-!
# Recovery — what is embedded is found again

Each template is a frame (`isFrame_templates`) and in normal form around a digit
(`canonical_templates`), so a code of three to ten digits is the only candidate of the message that
it is embedded in.  The first four templates announce a code to the detector with the English words
and the default settings (`announces_templates`), which therefore reports every code of three to
eight digits (`embedded_code_recovered`).
-/

namespace Passcode

open Text

/-! ### The English vocabulary -/

/-- The vocabulary of the English bundle. -/
def english : Vocabulary :=
  { locale := some defaultLocale
    lists := (Bundle.lists englishBundle).inForm
    message := (Bundle.messages englishBundle).get }

theorem vocabulary_english :
    (Store.packaged.vocabulary (some "en".toList)).value = .ok english := by
  have hread : Store.packaged.read .usual defaultLocale = .ok (some englishBundle) := by
    rw [Store.read, if_neg (by decide +kernel)]
    rfl
  have hsearch : Store.packaged.search .usual (localeCandidates (some "en".toList)) =
      .ok .theDefault := by rfl
  have hfaults : Bundle.faults englishBundle = 0 := by decide +kernel
  have hcheck : Bundle.Rules.usual.check englishBundle =
      .ok { lists := Bundle.lists englishBundle, messages := Bundle.messages englishBundle } :=
    Bundle.usual_check_eq_ok_iff.mpr ⟨hfaults, rfl⟩
  rw [Store.vocabulary, Store.vocabularyBy, hread]
  dsimp only
  rw [hsearch]
  show Bundle.vocabulary .usual defaultLocale englishBundle = .ok english
  rw [Bundle.vocabulary, hcheck]
  rfl

namespace StressMessage

/-! ### The templates -/

theorem isFrame_templates : ∀ t ∈ templates, IsFrame t.before.toList t.after.toList := by
  decide +kernel

theorem canonical_templates : ∀ t ∈ templates, canonical (t.fill ['0']) = t.fill ['0'] := by
  decide +kernel

/-- The templates of messages in English. -/
def englishTemplates : List Template := templates.take 4

theorem announces_templates : ∀ t ∈ englishTemplates,
    (Detector.of .default english).Announces t.before.toList t.after.toList := by
  decide +kernel

/-! ### Recovery -/

section Code

variable {code : Text} (hcode : ∀ c ∈ code, isAsciiDigit c = true) (hlow : 3 ≤ code.length)

include hcode hlow

/-- A code in a template is the only candidate of its message. -/
theorem candidatesOf_fill (hhigh : code.length ≤ 10) {t : Template} (ht : t ∈ templates)
    {limit : Option Int} (hlimit : ∀ n ∈ limit, ((t.fill code).length : Int) ≤ n) :
    candidatesOf (Message.ofText limit (t.fill code)).text =
      [.ofRun .numeric true (framedRun t.before.toList code t.after.toList)] := by
  have hne := ne_nil_of_three_le hlow
  have hnormal : canonical (t.fill code) = t.fill code :=
    canonical_around hcode hne (canonical_templates t ht)
  rw [Message.text_ofText_self hnormal hlimit]
  exact candidatesOf_frame (isFrame_templates t ht) hne hcode hlow hhigh

/-- A code of up to eight digits in an English template is reported. -/
theorem detect_fill (hhigh : code.length ≤ 8) {t : Template} (ht : t ∈ englishTemplates) :
    ∃ l, (Detector.of .default english).detect (t.fill code) = .ok l ∧ l.value.isOtp = true ∧
      l.value.code = some code := by
  have hn : Settings.default.calibration.AllNumbers := Detector.plain_allNumbers
  have hcontent : Settings.default.calibration.threshold.le
      (Settings.default.calibration.confidence ⟨true, false, false, false⟩
        (Score.toBinary64 ⟨8⟩)) = true := by
    decide +kernel
  exact Detector.detect_announced (d := .of .default english) Settings.withinBounds_default hn
    hcontent (announces_templates t ht) hcode hlow hhigh

end Code

/-- **What is embedded is found again.**  A code of three to ten digits that stands in one of the
templates is the only candidate of the message, whatever limit the message keeps to, and it is a
number.  By every seed the code is embedded in one of the templates, unless the source of the seed
is given up.  With the English words and the default settings every code of three to eight digits
in an English template is reported, and the message has a one-time code. -/
theorem embedded_code_recovered (code : Text) (hcode : ∀ c ∈ code, isAsciiDigit c = true)
    (hlow : 3 ≤ code.length) (hhigh : code.length ≤ 10) :
    (∀ t ∈ templates, ∀ limit : Option Int, (∀ n ∈ limit, ((t.fill code).length : Int) ≤ n) →
      ∃ c, candidatesOf (Message.ofText limit (t.fill code)).text = [c] ∧ c.code = code ∧
        c.numeric = true ∧ c.source = .numeric) ∧
      (∀ seed, (∃ t ∈ templates, embed seed code = .ok (t.fill code)) ∨
        embed seed code = .error .sourceGivenUp ∧ GivenUp seed) ∧
      (code.length ≤ 8 → ∃ v, (Store.packaged.vocabulary (some "en".toList)).value = .ok v ∧
        ∃ s, Settings.load none none = .ok s ∧
          ∀ t ∈ englishTemplates, ∃ l, (Detector.of s v).detect (t.fill code) = .ok l ∧
            l.value.isOtp = true ∧ l.value.code = some code) := by
  refine ⟨fun t ht limit hlimit => ?_, fun seed => embed_cases seed code, fun hshort => ?_⟩
  · exact ⟨_, candidatesOf_fill hcode hlow hhigh ht hlimit, rfl, rfl, rfl⟩
  · refine ⟨english, vocabulary_english, .default, Settings.load_none none, fun t ht => ?_⟩
    exact detect_fill hcode hlow hshort ht

/-- A code in a Chinese template is the only candidate, and in an English one it is reported. -/
theorem embedded_code_recovered_six :
    (∀ c ∈ "482913".toList, isAsciiDigit c = true) ∧ 3 ≤ "482913".toList.length ∧
      "482913".toList.length ≤ 10 ∧
        (∃ c, candidatesOf (Message.ofText (some 10000) "您的验证码是482913，请勿泄露。".toList).text =
          [c] ∧ c.code = "482913".toList ∧ c.numeric = true ∧ c.source = .numeric) ∧
        ∃ v s l, (Store.packaged.vocabulary (some "en".toList)).value = .ok v ∧
          Settings.load none none = .ok s ∧
            (Detector.of s v).detect "Login code: 482913".toList = .ok l ∧
              l.value.isOtp = true ∧ l.value.code = some "482913".toList := by
  have hcode : ∀ c ∈ "482913".toList, isAsciiDigit c = true := by decide
  have hlow : 3 ≤ "482913".toList.length := by decide
  have hhigh : "482913".toList.length ≤ 10 := by decide
  have hchinese : Template.fill ⟨"您的验证码是", "，请勿泄露。"⟩ "482913".toList =
      "您的验证码是482913，请勿泄露。".toList := by decide +kernel
  have hlogin : Template.fill ⟨"Login code: ", ""⟩ "482913".toList =
      "Login code: 482913".toList := by decide +kernel
  obtain ⟨hcandidates, -, hdetect⟩ := embedded_code_recovered "482913".toList hcode hlow hhigh
  have hone := hcandidates ⟨"您的验证码是", "，请勿泄露。"⟩ (by decide +kernel) (some 10000)
    (by rw [hchinese]; rintro n ⟨⟩; decide)
  obtain ⟨v, hv, s, hs, hall⟩ := hdetect (by decide)
  obtain ⟨l, hl⟩ := hall ⟨"Login code: ", ""⟩ (by decide +kernel)
  rw [hchinese] at hone
  rw [hlogin] at hl
  exact ⟨hcode, hlow, hhigh, hone, v, s, l, hv, hs, hl⟩

end StressMessage

end Passcode
