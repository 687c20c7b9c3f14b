import Mathlib.Data.List.Find
import Passcode.Proofs.Noise
import Passcode.Proofs.Text.Cut
import Passcode.Proofs.Text.Letters

/-!
# Cuts — what masking does to two texts that begin with the same words

* A link, a domain and a quotation mark are over at the latest where a space stands
  (`StopsAtSpace`), so the passes over them make of texts that agree up to an index texts that do
  (`agreeTo_maskPieces`).
* The phrase goes over one space.  Before a space that stands before the index the pass over it
  makes no difference either (`agreeTo_maskNoise`).
* The phrase has no digit, so the digits are decided by the first three passes alone
  (`filter_digit_maskNoise`).
-/

namespace Passcode

/-! ### Stretches and words before a space -/

namespace Text

variable {s t : Text}

/-- A stretch that holds no space ends with the words before it. -/
theorem takeWhile_append_of_apart {p : Char → Bool} (hp : p ' ' = false) (s : Text)
    (ht : StartsApart t) : (s ++ t).takeWhile p = s.takeWhile p := by
  induction s with
  | nil =>
    rcases ht.eq_nil_or_space_cons with rfl | ⟨rest, rfl⟩
    · rfl
    · exact List.takeWhile_cons_of_neg (by rw [hp]; exact Bool.false_ne_true)
  | cons c cs ih =>
    rw [List.cons_append, List.takeWhile_cons, List.takeWhile_cons, ih]

/-- Characters that are no spaces are taken no further than to a text that starts apart. -/
theorem takeWhile_take_append_of_apart {p : Char → Bool} (hp : p ' ' = false) (k : Nat) (s : Text)
    (ht : StartsApart t) : ((s ++ t).take k).takeWhile p = (s.take k).takeWhile p := by
  rw [← List.take_takeWhile, ← List.take_takeWhile, takeWhile_append_of_apart hp s ht]

theorem length_takeWhile_take_le (p : Char → Bool) (k : Nat) (s : Text) :
    ((s.take k).takeWhile p).length ≤ s.length :=
  ((List.takeWhile_prefix p).trans (List.take_prefix k s)).length_le

/-! ### Words in any case, and spaces -/

/-- Whether a text starts with a word is decided by as many of its own words as the word has
spaces, and one more. -/
theorem startsLike_append_of_apart {word s : Text} (hspaces : word.count ' ' ≤ s.count ' ')
    (ht : StartsApart t) : startsLike word (s ++ t) = startsLike word s := by
  induction word generalizing s with
  | nil => rfl
  | cons p word ih =>
    cases s with
    | nil =>
      have hp : p ≠ ' ' := fun hp => by rw [hp] at hspaces; simp at hspaces
      rcases ht.eq_nil_or_space_cons with rfl | ⟨rest, rfl⟩
      · rfl
      · have hspace : sameLetter p ' ' = false := Bool.eq_false_iff.mpr fun hsame =>
          hp ((sameLetter_space hsame).mpr rfl)
        simp only [List.nil_append, startsLike, hspace, Bool.false_and]
    | cons c cs =>
      simp only [List.cons_append, startsLike]
      cases hsame : sameLetter p c with
      | false => rfl
      | true =>
        rw [ih]
        have hiff := sameLetter_space hsame
        by_cases hp : p = ' '
        · simpa [hp, hiff.mp hp] using hspaces
        · have hc : c ≠ ' ' := fun hc => hp (hiff.mpr hc)
          simpa [List.count_cons_of_ne hp, List.count_cons_of_ne hc] using hspaces

end Text

open Text

namespace Noise

/-! ### Pieces that stop at a space -/

/-- A piece of noise is over at the latest where a space stands. -/
def StopsAtSpace (piece : Option Char → Text → Nat) : Prop :=
  ∀ (before : Option Char) (s : Text) {t : Text}, StartsApart t →
    piece before (s ++ t) = piece before s

theorem solidLength_append_of_apart (most : Nat) (s : Text) {t : Text} (ht : StartsApart t) :
    solidLength most (s ++ t) = solidLength most s := by
  rw [solidLength, solidLength, takeWhile_take_append_of_apart (by decide) most s ht]

/-- A link stops at a space. -/
theorem stopsAtSpace_link : StopsAtSpace (fun _ => linkLength) := by
  intro _ s t ht
  have hspaces : ∀ marker ∈ linkStarts, marker.count ' ' = 0 := by decide
  have hstarts : ∀ marker ∈ linkStarts, startsLike marker (s ++ t) = startsLike marker s :=
    fun marker hmem =>
      startsLike_append_of_apart (by rw [hspaces marker hmem]; exact Nat.zero_le _) ht
  have hfind : linkStarts.find? (fun start => startsLike start (s ++ t)) =
      linkStarts.find? (fun start => startsLike start s) := List.find?_congr hstarts
  dsimp only
  rw [linkLength, linkLength, hfind]
  split
  · rename_i marker hmarker
    have hle := length_le_of_startsLike
      (List.find?_some (p := fun start => startsLike start s) hmarker)
    rw [List.drop_append_of_le_length hle, solidLength_append_of_apart _ _ ht]
  · rfl

/-- A quotation mark is one character, so it stops at a space. -/
theorem stopsAtSpace_quote : StopsAtSpace (fun _ => quoteLength) := by
  intro _ s t ht
  cases s with
  | cons c cs => rfl
  | nil => rcases ht.eq_nil_or_space_cons with rfl | ⟨rest, rfl⟩ <;> rfl

theorem pathLength_append_of_apart (s : Text) {t : Text} (ht : StartsApart t) :
    pathLength (s ++ t) = pathLength s := by
  cases s with
  | nil => rcases ht.eq_nil_or_space_cons with rfl | ⟨rest, rfl⟩ <;> rfl
  | cons c cs =>
    by_cases hc : c = '/'
    · subst hc
      simp only [List.cons_append, pathLength, solidLength_append_of_apart _ cs ht]
    · have hnone : ∀ rest : Text, pathLength (c :: rest) = 0 := by
        intro rest
        unfold pathLength
        split
        · rename_i heq; exact absurd (List.cons.inj heq).1 hc
        · rfl
      rw [List.cons_append, hnone, hnone]

/-- A domain stops at a space. -/
theorem stopsAtSpace_domain : StopsAtSpace domainLength := by
  intro before s t ht
  cases s with
  | nil => rcases ht.eq_nil_or_space_cons with rfl | ⟨rest, rfl⟩ <;> rfl
  | cons c cs =>
    simp only [List.cons_append, domainLength]
    rw [takeWhile_take_append_of_apart (by decide) _ cs ht]
    have hle := length_takeWhile_take_le (fun d => isAsciiAlnum d || d == '-')
      (longestLabelRest + 1) cs
    generalize (cs.take (longestLabelRest + 1)).takeWhile
      (fun d => isAsciiAlnum d || d == '-') = label at *
    rw [List.drop_append_of_le_length hle]
    congr 1
    cases cs.drop label.length with
    | nil => rcases ht.eq_nil_or_space_cons with rfl | ⟨rest, rfl⟩ <;> rfl
    | cons d rest =>
      by_cases hd : d = '.'
      · subst hd
        simp only [List.cons_append]
        rw [takeWhile_take_append_of_apart (by decide) _ rest ht]
        have hle := length_takeWhile_take_le isAsciiLetter (longestTopLabel + 1) rest
        generalize (rest.take (longestTopLabel + 1)).takeWhile isAsciiLetter = top at *
        rw [List.drop_append_of_le_length hle, pathLength_append_of_apart _ ht]
        have hword : (rest.drop top.length ++ t).head?.any isWord =
            (rest.drop top.length).head?.any isWord := by
          cases rest.drop top.length with
          | cons e es => rfl
          | nil =>
            rcases ht.eq_nil_or_space_cons with rfl | ⟨rest, rfl⟩
            · rfl
            · exact (by decide : isWord ' ' = false)
        rw [hword]
      · -- Without a full stop behind the label there is no domain.
        split
        · rename_i heq; exact absurd (List.cons.inj heq).1 hd
        · split
          · rename_i heq; exact absurd (List.cons.inj heq).1 hd
          · rfl

/-! ### Passes -/

variable {piece : Option Char → Text → Nat}

/-- One pass over texts with a common beginning does the same to it if the pieces that start in it
are as long in the one text as in the other. -/
theorem take_blankOut_append {u s t : Text}
    (h : ∀ before v, v <:+ u → v ≠ [] → piece before (v ++ s) = piece before (v ++ t))
    (before : Option Char) (left : Nat) :
    (blankOut piece before left (u ++ s)).take u.length =
      (blankOut piece before left (u ++ t)).take u.length := by
  induction u generalizing before left with
  | nil => rfl
  | cons c cs ih =>
    have hrest := ih fun before v hv => h before v (hv.trans (List.suffix_cons c cs))
    cases left with
    | succ left =>
      simp only [List.cons_append, blankOut, List.length_cons, List.take_succ_cons]
      rw [hrest]
    | zero =>
      have hpiece := h before (c :: cs) (List.suffix_refl _) (List.cons_ne_nil _ _)
      simp only [List.cons_append] at hpiece
      simp only [List.cons_append, blankOut, List.length_cons, hpiece]
      cases piece before (c :: (cs ++ t)) with
      | zero => simp only [List.take_succ_cons]; rw [hrest]
      | succ n => simp only [List.take_succ_cons]; rw [hrest]

/-- Blanking out leaves a space where there was one. -/
theorem startsApart_blankOut {t : Text} {n : Nat} (h : StartsApart (t.drop n)) :
    StartsApart ((blankOut piece none 0 t).drop n) := by
  rw [startsApart_drop_iff] at h ⊢
  intro c hc
  cases hget : t[n]? with
  | none =>
    rw [List.getElem?_eq_none_iff, ← @length_blankOut piece none 0 t,
      ← List.getElem?_eq_none_iff] at hget
    rw [hget] at hc
    cases hc
  | some d =>
    rw [h d hget] at hget
    rw [blankOut_space t hget] at hc
    exact (Option.some.inj hc).symm

/-- A pass keeps the agreement of two texts if its pieces do not tell them apart. -/
theorem agreeTo_blankOut {s t : Text} {n : Nat} (h : AgreeTo n s t)
    (hpiece : ∀ before v, v <:+ s.take n → v ≠ [] →
      piece before (v ++ s.drop n) = piece before (v ++ t.drop n)) :
    AgreeTo n (blankOut piece none 0 s) (blankOut piece none 0 t) := by
  refine ⟨?_, startsApart_blankOut h.left, startsApart_blankOut h.right⟩
  have hs : s = s.take n ++ s.drop n := (List.take_append_drop n s).symm
  have ht : t = s.take n ++ t.drop n := by rw [h.take_eq, List.take_append_drop]
  rcases Nat.lt_or_ge s.length n with hn | hn
  · -- Neither text reaches the index, so they are the same.
    have hlength := congrArg List.length h.take_eq
    rw [List.length_take, List.length_take] at hlength
    have hsame : s = t := by
      rw [← List.take_of_length_le (Nat.le_of_lt hn), h.take_eq,
        List.take_of_length_le (by omega)]
    rw [hsame]
  · have htake := take_blankOut_append hpiece none 0
    rw [← hs, ← ht, List.length_take, Nat.min_eq_left hn] at htake
    exact htake

/-- For pieces that stop at spaces, texts that agree up to a space still do when they are blanked
out. -/
theorem agreeTo_of_stopsAtSpace (hpiece : StopsAtSpace piece) {s t : Text} {n : Nat}
    (h : AgreeTo n s t) : AgreeTo n (blankOut piece none 0 s) (blankOut piece none 0 t) :=
  agreeTo_blankOut h fun before v _ _ =>
    (hpiece before v h.left).trans (hpiece before v h.right).symm

/-- The phrase goes over one space, so before a space it is decided by what stands before the next
one. -/
theorem agreeTo_phrases {s t : Text} {m n : Nat} (h : AgreeTo n s t) (hmn : m < n)
    (hspace : s[m]? = some ' ') :
    AgreeTo m (blankOut (fun _ => phraseLength) none 0 s)
      (blankOut (fun _ => phraseLength) none 0 t) := by
  refine agreeTo_blankOut (h.of_space hmn hspace) fun _ v _ _ => ?_
  have hlength : m ≤ (s.take n).length := by
    have hlt := (List.getElem?_eq_some_iff.mp hspace).1
    rw [List.length_take]
    omega
  have hs : s.drop m = (s.take n).drop m ++ s.drop n := by
    rw [← List.drop_append_of_le_length hlength, List.take_append_drop]
  have ht : t.drop m = (s.take n).drop m ++ t.drop n := by
    rw [← List.drop_append_of_le_length hlength, h.take_eq, List.take_append_drop]
  -- What stands between the two indices has the space that the phrase goes over.
  have hcount : sharePhrase.count ' ' ≤ (v ++ (s.take n).drop m).count ' ' := by
    have hmem : ' ' ∈ (s.take n).drop m := by
      refine List.mem_of_getElem? (i := 0) ?_
      rw [List.getElem?_drop, Nat.add_zero, List.getElem?_take_of_lt hmn, hspace]
    have hone : sharePhrase.count ' ' = 1 := by decide
    have hpos := List.count_pos_iff.mpr hmem
    rw [hone, List.count_append]
    omega
  rw [hs, ht, phraseLength, phraseLength, ← List.append_assoc, ← List.append_assoc,
    startsLike_append_of_apart hcount h.left, startsLike_append_of_apart hcount h.right]

end Noise

/-! ### All passes -/

open Noise

/-- The text after the passes over links, domains and quotation marks. -/
def maskPieces (t : Text) : Text :=
  blankOut (fun _ => quoteLength) none 0
    (blankOut domainLength none 0 (blankOut (fun _ => linkLength) none 0 t))

/-- The noise is masked by blanking out the phrases last. -/
theorem maskNoise_eq (t : Text) :
    maskNoise t = blankOut (fun _ => phraseLength) none 0 (maskPieces t) := rfl

theorem length_maskPieces (t : Text) : (maskPieces t).length = t.length := by
  simp only [maskPieces, length_blankOut]

/-- Texts that agree up to a space still do when links, domains and quotation marks are blanked
out. -/
theorem agreeTo_maskPieces {s t : Text} {n : Nat} (h : AgreeTo n s t) :
    AgreeTo n (maskPieces s) (maskPieces t) :=
  agreeTo_of_stopsAtSpace stopsAtSpace_quote (agreeTo_of_stopsAtSpace stopsAtSpace_domain
    (agreeTo_of_stopsAtSpace stopsAtSpace_link h))

/-- **Masking keeps the agreement of two texts**, but for the last word before the index. -/
theorem agreeTo_maskNoise {s t : Text} {m n : Nat} (h : AgreeTo n s t) (hmn : m < n)
    (hspace : s[m]? = some ' ') : AgreeTo m (maskNoise s) (maskNoise t) :=
  agreeTo_phrases (agreeTo_maskPieces h) hmn
    (blankOut_space _ (blankOut_space _ (blankOut_space _ hspace)))

/-- The phrase has no digit, so the pass over it takes none. -/
theorem filter_digit_maskNoise (t : Text) (i : Nat) :
    (maskNoise t)[i]?.filter isAsciiDigit = (maskPieces t)[i]?.filter isAsciiDigit := by
  rw [maskNoise_eq]
  rcases blankOut_accounted none 0 (maskPieces t) (Nat.zero_le i) with hkeep | ⟨k, hk, hi, hblank⟩
  · rw [hkeep]
  · rw [phraseLength] at hi
    split at hi
    · rename_i hstarts
      obtain ⟨c, hc, hsame⟩ := startsLike_getElem? hstarts (i := i - k) (by omega)
      rw [List.getElem?_drop, Nat.add_sub_cancel' hk] at hc
      have hlt := (List.getElem?_eq_some_iff.mp hc).1
      have hnodigit : sharePhrase.any isAsciiDigit = false := by decide
      have hdigit : isAsciiDigit c = false := Bool.eq_false_iff.mpr fun hdigit => by
        have hp := List.any_eq_false.mp hnodigit _
          (List.getElem_mem (by omega : i - k < sharePhrase.length))
        exact hp (eq_of_sameLetter_of_digit hdigit hsame ▸ hdigit)
      rw [hblank i hk (by rw [phraseLength, if_pos hstarts]; exact hi) hlt, hc,
        Option.filter_some, Option.filter_some, hdigit, if_neg (by decide), if_neg (by decide)]
    · omega

end Passcode
