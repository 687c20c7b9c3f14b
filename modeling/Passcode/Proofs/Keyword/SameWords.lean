import Mathlib.Data.List.Perm.Lattice
import Passcode.Proofs.Explanation
import Passcode.Proofs.Keyword.List
import Passcode.Proofs.Keyword.Nearest

/-!
# Same words — the order, repetition and dress of keywords do not matter

Two lists of keywords have the same words (`KeywordList.SameWords`) if the forms of their keywords
are the same, empty ones apart.  Their keyword lists are then rearrangements of each other
(`items_perm`), whose keywords have the same centres (`keywordCentres_of_perm`), are found in the
same texts (`containsAny_of_perm`) and near the same places (`indicatorNear_of_perm`).

So detectors whose vocabularies have the same words explain every message alike
(`explain_of_same_words`).
-/

namespace Passcode

/-! ### Rearranged keywords -/

/-- The order of words is of no account when any of them will do. -/
theorem containsAny_of_perm {t : Text} {words words' : List Text} (h : words.Perm words') :
    containsAny t words = containsAny t words' := h.any_eq

theorem indicatorNear_of_perm {lower : Text} {indicators indicators' : List Text}
    {index radius : Int} (h : indicators.Perm indicators') :
    indicatorNear lower indicators index radius = indicatorNear lower indicators' index radius := by
  unfold indicatorNear
  dsimp only
  rw [containsAny_of_perm h]

/-- Centres are sorted, and a list has one sorted rearrangement only. -/
theorem keywordCentres_of_perm {lower : Text} {keywords keywords' : List Text}
    (h : keywords.Perm keywords') :
    keywordCentres lower keywords = keywordCentres lower keywords' := by
  have hcentres : ((keywords.filter (fun k => !k.isEmpty)).flatMap (centresOf lower)).Perm
      ((keywords'.filter (fun k => !k.isEmpty)).flatMap (centresOf lower)) :=
    (h.filter _).flatMap_right _
  have hsorted : (keywordCentres lower keywords).Perm (keywordCentres lower keywords') :=
    (List.mergeSort_perm _ _).trans (hcentres.trans (List.mergeSort_perm _ _).symm)
  exact hsorted.eq_of_pairwise (fun _ _ _ _ => Nat.le_antisymm)
    (keywordCentres_pairwise lower keywords) (keywordCentres_pairwise lower keywords')

theorem ScoredCandidate.ofAll_congr {s s' : Surroundings}
    (h : ∀ facts c, Breakdown.ofCandidate s facts c = Breakdown.ofCandidate s' facts c)
    (ix : LineIndex) (cs : List Candidate) : ofAll s ix cs = ofAll s' ix cs := by
  induction cs generalizing ix with
  | nil => rfl
  | cons c cs ih => simp only [ofAll, of, h, ih]

/-! ### Lists with the same words -/

/-- The forms of the keywords are the same, empty ones apart. -/
def KeywordList.SameWords (keywords keywords' : List Text) : Prop :=
  ∀ w : Text, w ≠ [] → ((∃ k ∈ keywords, form k = w) ↔ ∃ k ∈ keywords', form k = w)

namespace KeywordList

variable {keywords keywords' : List Text}

/-- Keyword lists have the same words exactly if each list in form has those of the other. -/
theorem sameWords_iff : SameWords keywords keywords' ↔
    (of keywords).items ⊆ (of keywords').items ∧ (of keywords').items ⊆ (of keywords).items := by
  constructor
  · intro h
    refine ⟨fun w hw => ?_, fun w hw => ?_⟩
    · obtain ⟨hne, hk⟩ := mem_of.mp hw
      exact mem_of.mpr ⟨hne, (h w hne).mp hk⟩
    · obtain ⟨hne, hk⟩ := mem_of.mp hw
      exact mem_of.mpr ⟨hne, (h w hne).mpr hk⟩
  · rintro ⟨hsub, hsub'⟩ w hne
    refine ⟨fun hk => ?_, fun hk => ?_⟩
    · exact (mem_of.mp (hsub (mem_of.mpr ⟨hne, hk⟩))).2
    · exact (mem_of.mp (hsub' (mem_of.mpr ⟨hne, hk⟩))).2

instance : Decidable (SameWords keywords keywords') := decidable_of_iff _ sameWords_iff.symm

/-- The keyword lists of lists with the same words are rearrangements of each other. -/
theorem items_perm (h : SameWords keywords keywords') :
    (of keywords).items.Perm (of keywords').items := by
  obtain ⟨hsub, hsub'⟩ := sameWords_iff.mp h
  exact (List.perm_ext_iff_of_nodup (nodup_items keywords) (nodup_items keywords')).mpr
    fun _ => ⟨fun hw => hsub hw, fun hw => hsub' hw⟩

end KeywordList

/-- The lists have the same words, kind by kind. -/
structure KeywordLists.SameWords (lists lists' : KeywordLists) : Prop where
  otp : KeywordList.SameWords lists.otp lists'.otp
  safety : KeywordList.SameWords lists.safety lists'.safety
  money : KeywordList.SameWords lists.money lists'.money
  parcel : KeywordList.SameWords lists.parcel lists'.parcel

/-! ### Detectors -/

namespace Detector

/-- Detectors with the same settings and messages that see the same flags and scores explain a
message alike. -/
theorem explain_congr {d d' : Detector} (hsettings : d.settings = d'.settings)
    (hmessage : d.message = d'.message) (hflags : ∀ m, d.flagsOf m = d'.flagsOf m)
    (hscored : ∀ m flags cs, d.scoredOf m flags cs = d'.scoredOf m flags cs) (raw : Text) :
    d.explain raw = d'.explain raw := by
  unfold explain explainEmpty explainNone explainScored
  simp only [hsettings, hmessage, hflags, hscored]

section Vocabularies

variable {v v' : Vocabulary}

/-- The same words raise the same flags. -/
theorem flagsOf_of_same_words (s : Settings) (h : v.lists.SameWords v'.lists) (m : Message) :
    (Detector.of s v).flagsOf m = (Detector.of s v').flagsOf m := by
  simp only [flagsOf, Flags.of, Detector.of, containsAny_of_perm (KeywordList.items_perm h.otp),
    containsAny_of_perm (KeywordList.items_perm h.safety),
    containsAny_of_perm (KeywordList.items_perm h.parcel)]

/-- The same words give the same scores. -/
theorem scoredOf_of_same_words (s : Settings) (h : v.lists.SameWords v'.lists) (m : Message)
    (flags : Flags) (cs : List Candidate) :
    (Detector.of s v).scoredOf m flags cs = (Detector.of s v').scoredOf m flags cs := by
  refine ScoredCandidate.ofAll_congr (fun facts c => ?_) _ _
  simp only [Breakdown.ofCandidate, Detector.of,
    keywordCentres_of_perm (KeywordList.items_perm h.otp),
    indicatorNear_of_perm (KeywordList.items_perm h.money)]

end Vocabularies

/-- **Keywords are sets of words**: vocabularies with the same messages and the same words explain
every message alike, with the same entries in the journal, whatever the order of their keywords, how
often each is given, and its padding and letter case. -/
theorem explain_of_same_words {s : Settings} (hs : s.WithinBounds) {v v' : Vocabulary}
    (hwords : v.lists.SameWords v'.lists) (hmessage : v.message = v'.message) (raw : Text) :
    ∃ l, (Detector.of s v).explain raw = .ok l ∧ (Detector.of s v').explain raw = .ok l := by
  obtain ⟨l, hexplain, -⟩ := exists_explanation (d := Detector.of s v') hs raw
  have hflags := flagsOf_of_same_words s hwords
  have hscored := scoredOf_of_same_words s hwords
  have hsame : (Detector.of s v).explain raw = (Detector.of s v').explain raw := by
    apply explain_congr _ hmessage hflags hscored
    rfl
  exact ⟨l, hsame.trans hexplain, hexplain⟩

/-- Keywords in form, each once. -/
def tidy : Vocabulary :=
  .given
    { otp := ["otp".toList, "code".toList], safety := ["share".toList], money := ["rs".toList]
      parcel := [] }
    (fun _ => none)

/-- The same words in another order, padded, repeated, in capitals, with empty ones among them. -/
def untidy : Vocabulary :=
  { locale := none
    lists :=
      { otp := ["Code".toList, " ".toList, "\tOTP ".toList, "code".toList]
        safety := [" SHARE".toList], money := ["".toList, "Rs ".toList, "rS".toList]
        parcel := ["\n".toList] }
    message := tidy.message }

theorem explain_untidy :
    Settings.default.WithinBounds ∧ tidy.lists.SameWords untidy.lists ∧
      tidy.message = untidy.message ∧
        ∃ l, (Detector.of .default tidy).explain "Rs 500. OTP code: 482911".toList = .ok l ∧
          (Detector.of .default untidy).explain "Rs 500. OTP code: 482911".toList = .ok l := by
  have hwords : tidy.lists.SameWords untidy.lists :=
    ⟨by decide +kernel, by decide +kernel, by decide +kernel, by decide +kernel⟩
  exact ⟨Settings.withinBounds_default, hwords, rfl,
    explain_of_same_words Settings.withinBounds_default hwords rfl _⟩

end Detector

end Passcode
