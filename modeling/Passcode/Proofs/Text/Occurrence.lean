import Passcode.Keyword.Occurrence
import Passcode.Proofs.Text.Runs

/-!
# Occurrences — more text and more words, more to be found

* `occursIn_iff`: a text occurs in another exactly if it is a stretch of it.
* `slice_isInfix_slice`: a narrower stretch is a stretch of a wider one.
* `infix_slice_iff`: a word occurs in a stretch exactly if it stands in the text at an index from
  which on it lies within the stretch.  So an indicator is near an index if it stands wholly within
  the radius (`indicatorNear_iff`).
* `containsAny_mono`, `indicatorNear_mono`: what is found stays found in more text, among more
  words and within a wider radius.
-/

namespace Passcode

namespace Text

theorem occursIn_iff {needle t : Text} : occursIn needle t = true ↔ needle <:+: t := by
  induction t with
  | nil => rw [occursIn, List.isEmpty_iff, List.infix_nil]
  | cons c cs ih =>
    rw [occursIn, Bool.or_eq_true, ih, List.isPrefixOf_iff_prefix, List.infix_cons_iff]

theorem boundOf_mono (n : Nat) {i j : Int} (hi : 0 ≤ i) (hij : i ≤ j) :
    boundOf n i ≤ boundOf n j := by
  rw [boundOf, boundOf, if_neg (by omega), if_neg (by omega)]
  omega

/-- A narrower stretch is a stretch of a wider one. -/
theorem slice_isInfix_slice (t : Text) {a b a' b' : Int} (ha : 0 ≤ a) (haa' : a ≤ a')
    (hb : boundOf t.length b' ≤ boundOf t.length b) : slice t a' b' <:+: slice t a b := by
  have hfirst := boundOf_mono t.length ha haa'
  unfold slice
  generalize boundOf t.length a = p at *
  generalize boundOf t.length a' = p' at *
  generalize boundOf t.length b = q at *
  generalize boundOf t.length b' = q' at *
  have hdrop : (t.take q').drop p' <:+ (t.take q').drop p := by
    obtain ⟨k, rfl⟩ := Nat.exists_eq_add_of_le hfirst
    rw [← List.drop_drop]
    exact List.drop_suffix k _
  have htake : (t.take q').drop p <+: (t.take q).drop p := by
    rw [List.drop_take, List.drop_take]
    exact List.take_prefix_take_left (by omega)
  exact hdrop.isInfix.trans htake.isInfix

/-- A word occurs in a stretch exactly if it stands in the text and lies within the stretch. -/
theorem infix_slice_iff {word : Text} (hne : word ≠ []) {t : Text} {a b : Nat} :
    word <:+: slice t a b ↔ ∃ i, a ≤ i ∧ i + word.length ≤ b ∧ word <+: t.drop i := by
  have hpos : 0 < word.length := List.length_pos_iff.mpr hne
  rw [slice_natCast]
  constructor
  · rintro ⟨before, behind, h⟩
    have hdrop : (t.take b).drop (a + before.length) = word ++ behind := by
      rw [← List.drop_drop, ← h, List.append_assoc, List.drop_left]
    rw [List.drop_take] at hdrop
    have hprefix : word <+: (t.drop (a + before.length)).take (b - (a + before.length)) :=
      ⟨behind, hdrop.symm⟩
    obtain ⟨hword, hle⟩ := List.prefix_take_iff.mp hprefix
    exact ⟨a + before.length, Nat.le_add_right _ _, by omega, hword⟩
  · rintro ⟨i, ha, hb, hword⟩
    have hprefix : word <+: (t.take b).drop i := by
      rw [List.drop_take]
      exact List.prefix_take_iff.mpr ⟨hword, by omega⟩
    obtain ⟨k, rfl⟩ := Nat.exists_eq_add_of_le ha
    rw [← List.drop_drop] at hprefix
    exact hprefix.isInfix.trans (List.drop_suffix _ _).isInfix

end Text

open Text

theorem containsAny_iff {t : Text} {words : List Text} :
    containsAny t words = true ↔ ∃ w ∈ words, w ≠ [] ∧ w <:+: t := by
  rw [containsAny, List.any_eq_true]
  refine exists_congr fun w => and_congr_right fun _ => ?_
  rw [Bool.and_eq_true, Bool.not_eq_true', List.isEmpty_eq_false_iff, occursIn_iff]

/-- What is found stays found in more text and among more words. -/
theorem containsAny_mono {s t : Text} {words words' : List Text} (hst : s <:+: t)
    (hwords : words ⊆ words') (h : containsAny s words = true) : containsAny t words' = true := by
  obtain ⟨w, hw, hne, hin⟩ := containsAny_iff.mp h
  exact containsAny_iff.mpr ⟨w, hwords hw, hne, hin.trans hst⟩

/-- **An indicator is near** exactly if one stands wholly within the radius. -/
theorem indicatorNear_iff {lower : Text} {indicators : List Text} {index radius : Int} :
    indicatorNear lower indicators index radius = true ↔
      ∃ w ∈ indicators, w ≠ [] ∧ ∃ i : Nat, max (index - radius) 0 ≤ i ∧
        i + w.length ≤ min (index + radius) lower.length ∧ w <+: lower.drop i := by
  have hpos : ∀ {w : Text}, w ≠ [] → 0 < w.length := List.length_pos_iff.mpr
  unfold indicatorNear
  dsimp only
  obtain ⟨a, ha⟩ := Int.eq_ofNat_of_zero_le (Int.le_max_right (index - radius) 0)
  rw [ha]
  generalize min (index + radius) (lower.length : Int) = stop
  split
  · rename_i hclosed
    refine iff_of_false Bool.false_ne_true ?_
    rintro ⟨w, -, hne, i, hi, hstop, -⟩
    have := hpos hne
    omega
  · rename_i hopen
    obtain ⟨b, rfl⟩ := Int.eq_ofNat_of_zero_le (a := stop) (by omega)
    rw [containsAny_iff]
    refine exists_congr fun w => and_congr_right fun _ => and_congr_right fun hne => ?_
    rw [infix_slice_iff hne]
    refine exists_congr fun i => ?_
    rw [← Int.natCast_add, Int.ofNat_le, Int.ofNat_le]

/-- An indicator that is near stays near within a wider radius and among more indicators. -/
theorem indicatorNear_mono {lower : Text} {indicators indicators' : List Text} {index : Int}
    {radius radius' : Int} (hindicators : indicators ⊆ indicators') (hradius : radius ≤ radius')
    (h : indicatorNear lower indicators index radius = true) :
    indicatorNear lower indicators' index radius' = true := by
  unfold indicatorNear at h ⊢
  dsimp only at h ⊢
  split at h
  · cases h
  · rename_i hopen
    rw [if_neg (by omega)]
    refine containsAny_mono (slice_isInfix_slice lower (by omega) (by omega) ?_) hindicators h
    exact boundOf_mono _ (by omega) (by omega)

end Passcode
