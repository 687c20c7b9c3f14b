import Passcode.Text.Lowercase

/-!
# Lowercase — words that are found in a stretch are found in the text

What stands around a stretch decides one thing about its lowercase form: whether a capital sigma
becomes the final sigma or the plain one.  Sigmas apart, lowercasing goes character by character
(`map_unifySigma_lower`), so the lowercase form of a stretch is, sigmas apart, a stretch of the
lowercase form of the text, and a word that has no sigma occurs in the one only if it occurs in the
other (`infix_lower_of_infix`).
-/

namespace Passcode.Text

/-- The lowercase sigma that stands anywhere but at the end of a word. -/
def smallSigma : Char := '\u03C3'

/-- Takes the final sigma for the plain one. -/
def unifySigma (c : Char) : Char := if c = finalSigma then smallSigma else c

theorem lowerForm_capitalSigma : lowerForm capitalSigma = [smallSigma] := by decide +kernel

/-- Sigmas apart, lowercasing goes character by character. -/
theorem map_unifySigma_lowerFrom (casedBefore : Bool) (t : Text) :
    (lowerFrom casedBefore t).map unifySigma = (t.flatMap lowerForm).map unifySigma := by
  induction t generalizing casedBefore with
  | nil => rfl
  | cons c cs ih =>
    rw [lowerFrom, List.flatMap_cons, List.map_append, List.map_append, ih]
    congr 1
    split
    · rename_i hsigma
      simp only [Bool.and_eq_true, decide_eq_true_eq] at hsigma
      rw [hsigma.1.1, lowerForm_capitalSigma]
      decide
    · rfl

theorem map_unifySigma_lower (t : Text) :
    (lower t).map unifySigma = (t.flatMap lowerForm).map unifySigma :=
  map_unifySigma_lowerFrom false t

/-- The word has neither of the two lowercase sigmas. -/
def FreeOfSigma (word : Text) : Prop := ∀ c ∈ word, c ≠ finalSigma ∧ c ≠ smallSigma

instance (word : Text) : Decidable (FreeOfSigma word) := List.decidableBAll _ word

/-- A word without sigmas occurs in a text exactly if it does so, sigmas apart. -/
theorem infix_map_unifySigma_iff {word t : Text} (hword : FreeOfSigma word) :
    word <:+: t.map unifySigma ↔ word <:+: t := by
  have hself : word.map unifySigma = word :=
    (List.map_congr_left fun c hc => if_neg (hword c hc).1).trans (List.map_id word)
  constructor
  · rintro ⟨before, behind, h⟩
    obtain ⟨front, rest, rfl, hfront, -⟩ := List.map_eq_append_iff.mp h.symm
    obtain ⟨start, w, rfl, -, hw⟩ := List.map_eq_append_iff.mp hfront
    -- A character that becomes one of the word was that character, for it is no sigma.
    have hsame : w.map unifySigma = w := by
      refine (List.map_congr_left fun c hc => ?_).trans (List.map_id w)
      have hmem : unifySigma c ∈ word := hw ▸ List.mem_map_of_mem hc
      by_cases hc' : c = finalSigma
      · exact absurd (if_pos hc') (hword _ hmem).2
      · exact if_neg hc'
    exact ⟨start, rest, by rw [← hw, hsame]⟩
  · rintro ⟨before, behind, rfl⟩
    exact ⟨before.map unifySigma, behind.map unifySigma, by
      rw [List.map_append, List.map_append, hself]⟩

/-- A word without sigmas that occurs in the lowercase form of a stretch occurs in that of the
text. -/
theorem infix_lower_of_infix {word s t : Text} (hword : FreeOfSigma word) (hs : s <:+: t)
    (h : word <:+: lower s) : word <:+: lower t := by
  rw [← infix_map_unifySigma_iff hword, map_unifySigma_lower] at h ⊢
  obtain ⟨before, behind, rfl⟩ := hs
  refine h.trans ⟨(before.flatMap lowerForm).map unifySigma,
    (behind.flatMap lowerForm).map unifySigma, ?_⟩
  simp only [List.flatMap_append, List.map_append]

end Passcode.Text
