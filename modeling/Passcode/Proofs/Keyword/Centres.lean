import Passcode.Proofs.Explanation
import Passcode.Proofs.Keyword.Nearest
import Passcode.Proofs.Text.Occurrence

/-!
# Centres — what the keyword centres are the middles of

The centres of a text are the middles of the occurrences that searches for the keywords select, one
for each occurrence and each time that its keyword is listed (`keywordCentres_perm`).  There is one
exactly if a keyword stands in the text (`keywordCentres_ne_nil_iff`), which is the question that
the OTP flag of a message answers.

So a candidate gains points for a keyword near it only in a message that has the flag
(`Detector.centres_by_search`).
-/

namespace Passcode

open Text

/-! ### The centres of a text -/

theorem keywordCentres_perm (lower : Text) (keywords : List Text) :
    (keywordCentres lower keywords).Perm
      ((keywords.filter (· ≠ [])).flatMap fun k =>
        (selectFrom k 0 0 lower).map (· + k.length / 2)) := by
  have hfilter : keywords.filter (fun k => !k.isEmpty) = keywords.filter (· ≠ []) :=
    List.filter_congr fun k _ => by cases k <;> rfl
  rw [keywordCentres, hfilter]
  exact List.mergeSort_perm _ _

/-- **There is a centre exactly if a keyword stands in the text.** -/
theorem keywordCentres_ne_nil_iff {lower : Text} {keywords : List Text} :
    keywordCentres lower keywords ≠ [] ↔ containsAny lower keywords = true := by
  rw [containsAny_iff]
  constructor
  · intro hcentres
    obtain ⟨c, hmem⟩ := List.exists_mem_of_ne_nil _ hcentres
    obtain ⟨k, hk, hne, hc⟩ := mem_keywordCentres.mp hmem
    obtain ⟨i, hi, -⟩ := mem_centresOf.mp hc
    exact ⟨k, hk, hne, exists_standsAt_iff.mp ⟨i, (selects_selectFrom hne).stands i hi⟩⟩
  · rintro ⟨k, hk, hne, hstands⟩
    obtain ⟨c, hc, -⟩ := exists_centre hk hne hstands
    exact List.ne_nil_of_mem hc

/-! ### Points for a keyword that is near -/

/-- Where there are points for the distance to a keyword there is a centre. -/
theorem Signal.ne_nil_of_ofDistance_pos {index : Int} {centres : List Int}
    (h : 0 < (ofDistance (distanceToNearest index centres)).halves) : centres ≠ [] := by
  rintro rfl
  exact absurd h (Int.lt_irrefl 0)

namespace Detector

/-- A candidate that gains points for a keyword near it is in a message with a centre. -/
theorem keywordCentres_ne_nil_of_proximity {d : Detector} {raw : Text} {s : ScoredCandidate}
    (hs : s ∈ d.scoresOf raw) (h : 0 < s.breakdown.keywordProximity.halves) :
    keywordCentres (d.messageOf raw).lower d.otp.items ≠ [] := by
  obtain ⟨-, facts, hbreakdown⟩ := ScoredCandidate.exists_of_mem_ofAll hs
  rw [hbreakdown] at h
  have hcentres := Signal.ne_nil_of_ofDistance_pos h
  intro hnil
  exact hcentres (by rw [hnil]; rfl)

/-- The OTP flag in an explanation is set exactly if there is a centre. -/
theorem otp_flag_iff_centre {d : Detector} (hd : d.settings.WithinBounds) {raw : Text}
    {l : Logged Explanation} (h : d.explain raw = .ok l) :
    l.value.flags.any Flags.otp = true ↔
      keywordCentres (d.messageOf raw).lower d.otp.items ≠ [] := by
  by_cases ht : (d.messageOf raw).text = []
  · -- An empty message has no flags, and no keyword stands in it.
    cases h.symm.trans (explain_of_empty ht)
    have hlower : (d.messageOf raw).lower = [] := by
      rw [messageOf, Message.ofText] at ht ⊢
      dsimp only at ht ⊢
      rw [ht]
      rfl
    refine iff_of_false Bool.false_ne_true fun hcentres => ?_
    obtain ⟨c, hc⟩ := List.exists_mem_of_ne_nil _ hcentres
    have hlt := lt_length_of_mem_keywordCentres hc
    rw [hlower] at hlt
    cases hlt
  · rw [flags_of_explain hd h ht, keywordCentres_ne_nil_iff]
    rfl

/-- **Centres by search**: the centres of a text ascend, and they are the middles of what searches
for the keywords select, keyword by keyword.  A search ends for every keyword but the empty one; it
selects occurrences that do not overlap, and leaves none out that does not overlap an earlier one of
these.  The centres lie within the text, and there is one exactly if a keyword stands in it.  So in
every explanation the OTP flag is set exactly if there is a centre, and no candidate gains points
for a keyword near it where the flag is not set. -/
theorem centres_by_search (lower : Text) (keywords : List Text) :
    (keywordCentres lower keywords).Pairwise (· ≤ ·) ∧
    (keywordCentres lower keywords).Perm
      ((keywords.filter (· ≠ [])).flatMap fun k =>
        (selectFrom k 0 0 lower).map (· + k.length / 2)) ∧
    (∀ k : Text, (∃ is, SearchEnds k lower 0 is) ↔ k ≠ []) ∧
    (∀ k : Text, k ≠ [] →
      SearchEnds k lower 0 (selectFrom k 0 0 lower) ∧ Selects k lower (selectFrom k 0 0 lower)) ∧
    (∀ c ∈ keywordCentres lower keywords, c < lower.length) ∧
    (keywordCentres lower keywords ≠ [] ↔ containsAny lower keywords = true) ∧
    ∀ (d : Detector) (raw : Text), d.settings.WithinBounds → ∃ l, d.explain raw = .ok l ∧
      (l.value.flags.any Flags.otp = true ↔
        keywordCentres l.value.message.lower d.otp.items ≠ []) ∧
      ∀ s ∈ l.value.candidates, 0 < s.breakdown.keywordProximity.halves →
        l.value.flags.any Flags.otp = true := by
  refine ⟨keywordCentres_pairwise lower keywords, keywordCentres_perm lower keywords,
    fun k => ?_, fun k hne => ⟨(searchEnds_iff hne).mpr rfl, selects_selectFrom hne⟩,
    fun c => lt_length_of_mem_keywordCentres, keywordCentres_ne_nil_iff, fun d raw hd => ?_⟩
  · constructor
    · rintro ⟨is, hends⟩ rfl
      exact not_searchEnds_nil (Nat.zero_le _) hends
    · intro hne
      exact ⟨_, (searchEnds_iff hne).mpr rfl⟩
  · obtain ⟨l, hexplain, hmessage, hcandidates, -⟩ := exists_explanation hd raw
    have hflag := otp_flag_iff_centre hd hexplain
    refine ⟨l, hexplain, by rw [hmessage]; exact hflag, fun s hs hpos => hflag.mpr ?_⟩
    rw [hcandidates] at hs
    exact keywordCentres_ne_nil_of_proximity hs hpos

/-- A keyword that overlaps itself, the empty one, another, and the first again. -/
def overlapping : List Text := ["aa".toList, [], "otp".toList, "aa".toList]

theorem centres_by_search_overlapping :
    keywordCentres "aaaaa otp".toList overlapping = [1, 1, 3, 3, 7] ∧
      Selects "aa".toList "aaaaa otp".toList [0, 2] ∧
      (∃ j ∈ [0, 2], j ≤ 3 ∧ 3 < j + 2) ∧
      plain.settings.WithinBounds ∧
      ∃ l, plain.explain "otp 482911".toList = .ok l ∧
        (∃ s ∈ l.value.candidates, 0 < s.breakdown.keywordProximity.halves) ∧
        l.value.flags.any Flags.otp = true := by
  obtain ⟨hsorted, hperm, -, hsearch, -, -, hexplanation⟩ :=
    centres_by_search "aaaaa otp".toList overlapping
  -- An ascending list is known by its entries.
  have hentries : ((overlapping.filter (· ≠ [])).flatMap fun k =>
      (selectFrom k 0 0 "aaaaa otp".toList).map (· + k.length / 2)).Perm [1, 1, 3, 3, 7] := by
    decide +kernel
  have hcentres : keywordCentres "aaaaa otp".toList overlapping = [1, 1, 3, 3, 7] :=
    (hperm.trans hentries).eq_of_pairwise (fun _ _ _ _ => Nat.le_antisymm) hsorted (by decide)
  obtain ⟨-, hselects⟩ := hsearch "aa".toList (by decide)
  have hselected : selectFrom "aa".toList 0 0 "aaaaa otp".toList = [0, 2] := by decide +kernel
  rw [hselected] at hselects
  have hstands : StandsAt "aa".toList "aaaaa otp".toList 3 := by
    rw [StandsAt]
    decide +kernel
  obtain ⟨l, hexplain, -, hflag⟩ := hexplanation plain "otp 482911".toList plain_withinBounds
  have hcandidates : l.value.candidates = plain.scoresOf "otp 482911".toList := by
    obtain ⟨l', hexplain', -, h, -⟩ := exists_explanation plain_withinBounds "otp 482911".toList
    cases hexplain.symm.trans hexplain'
    exact h
  obtain ⟨s, hs, hpos⟩ : ∃ s ∈ l.value.candidates, 0 < s.breakdown.keywordProximity.halves := by
    rw [hcandidates]
    decide +kernel
  exact ⟨hcentres, hselects, hselects.covers 3 hstands, plain_withinBounds,
    l, hexplain, ⟨s, hs, hpos⟩, hflag s hs hpos⟩

end Detector

end Passcode
