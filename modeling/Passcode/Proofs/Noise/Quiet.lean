import Mathlib.Data.List.Chain
import Passcode.Proofs.Text.Letters

/-!
# Quiet texts — what masking leaves as it is

A text is quiet if no link and no phrase can start in it, no full stop has a letter behind it, and
no quotation mark stands in it (`IsQuiet`).  No kind of noise finds a piece in such a text, so
masking leaves it as it is (`maskNoise_of_quiet`).

Digits make no noise: two quiet texts with digits between them are quiet (`IsQuiet.around`).
-/

namespace Passcode

open Text Noise

/-- No kind of noise can start anywhere in the text. -/
structure IsQuiet (t : Text) : Prop where
  links : ∀ start ∈ linkStarts, occursLike start t = false
  /-- No full stop has a letter behind it. -/
  stops : t.IsChain (fun a b => a = '.' → isAsciiLetter b = false)
  quotes : ∀ c ∈ t, isQuote c = false
  phrase : occursLike sharePhrase t = false

instance (t : Text) : Decidable (IsQuiet t) :=
  decidable_of_iff
    ((∀ start ∈ linkStarts, occursLike start t = false) ∧
      t.IsChain (fun a b => a = '.' → isAsciiLetter b = false) ∧
      (∀ c ∈ t, isQuote c = false) ∧ occursLike sharePhrase t = false)
    ⟨fun ⟨h₁, h₂, h₃, h₄⟩ => ⟨h₁, h₂, h₃, h₄⟩, fun ⟨h₁, h₂, h₃, h₄⟩ => ⟨h₁, h₂, h₃, h₄⟩⟩

/-! ### Masking -/

/-- Where no piece starts nothing is blanked. -/
theorem blankOut_eq_self {piece : Option Char → Text → Nat} {t : Text}
    (h : ∀ before c cs, c :: cs <:+ t → piece before (c :: cs) = 0) (before : Option Char) :
    blankOut piece before 0 t = t := by
  induction t generalizing before with
  | nil => rfl
  | cons c cs ih =>
    rw [blankOut, h before c cs (List.suffix_refl _)]
    dsimp only
    rw [ih fun before' d ds hsuffix => h before' d ds (hsuffix.trans (List.suffix_cons c cs))]

theorem linkLength_eq_zero {t : Text} (h : ∀ start ∈ linkStarts, startsLike start t = false) :
    linkLength t = 0 := by
  have hnone : linkStarts.find? (fun start => startsLike start t) = none :=
    List.find?_eq_none.mpr fun start hstart hlike => by
      rw [h start hstart] at hlike
      cases hlike
  rw [linkLength, hnone]

/-- A domain has a full stop with a letter behind it. -/
theorem domainLength_eq_zero {t : Text}
    (h : t.IsChain (fun a b => a = '.' → isAsciiLetter b = false)) (before : Option Char) :
    domainLength before t = 0 := by
  cases t with
  | nil => rfl
  | cons c cs =>
    rw [domainLength]
    dsimp only
    split
    · rfl
    · split
      · rename_i rest hrest
        -- The last label would start with the character behind the full stop.
        have hsuffix : '.' :: rest <:+ c :: cs :=
          (hrest ▸ List.drop_suffix _ cs).trans (List.suffix_cons c cs)
        have hnext := (List.isChain_cons.mp (h.suffix hsuffix)).1
        have htop : (rest.take (longestTopLabel + 1)).takeWhile isAsciiLetter = [] := by
          cases rest with
          | nil => rfl
          | cons d ds =>
            exact List.takeWhile_cons_of_neg
              (by rw [hnext d rfl rfl]; exact Bool.false_ne_true)
        rw [htop, if_pos (by simp)]
      · rfl

/-- **Masking leaves a quiet text as it is.** -/
theorem maskNoise_of_quiet {t : Text} (h : IsQuiet t) : maskNoise t = t := by
  have hlinks : blankOut (fun _ => linkLength) none 0 t = t :=
    blankOut_eq_self (fun _ _ _ hsuffix => linkLength_eq_zero fun start hstart =>
      startsLike_eq_false_of_suffix (h.links start hstart) hsuffix) none
  have hdomains : blankOut domainLength none 0 t = t :=
    blankOut_eq_self (fun before _ _ hsuffix =>
      domainLength_eq_zero (h.stops.suffix hsuffix) before) none
  have hquotes : blankOut (fun _ => quoteLength) none 0 t = t :=
    blankOut_eq_self (fun _ c _ hsuffix =>
      if_neg (Bool.eq_false_iff.mp (h.quotes c (hsuffix.mem List.mem_cons_self)))) none
  have hphrases : blankOut (fun _ => phraseLength) none 0 t = t :=
    blankOut_eq_self (fun _ _ _ hsuffix =>
      if_neg (Bool.eq_false_iff.mp (startsLike_eq_false_of_suffix h.phrase hsuffix))) none
  rw [maskNoise, hlinks, hdomains, hquotes, hphrases]

/-! ### Digits between two texts -/

theorem not_isAsciiLetter_of_digit {c : Char} (h : isAsciiDigit c = true) :
    isAsciiLetter c = false := of_digit (P := fun c => isAsciiLetter c = false) (by decide) h

theorem not_isQuote_of_digit {c : Char} (h : isAsciiDigit c = true) : isQuote c = false :=
  of_digit (P := fun c => isQuote c = false) (by decide) h

/-- What holds of all neighbours in two texts, and of a digit beside anything, holds of all
neighbours in the texts with digits between them. -/
theorem isChain_around {R : Char → Char → Prop} {before code after : Text}
    (hleft : ∀ a b, isAsciiDigit b = true → R a b) (hright : ∀ a b, isAsciiDigit a = true → R a b)
    (hcode : ∀ c ∈ code, isAsciiDigit c = true) (hne : code ≠ []) (hbefore : before.IsChain R)
    (hafter : after.IsChain R) : (before ++ code ++ after).IsChain R := by
  have hdigits : code.IsChain R := by
    clear hne
    induction code with
    | nil => exact .nil
    | cons c cs ih =>
      exact List.isChain_cons.mpr ⟨fun d _ => hright c d (hcode c List.mem_cons_self),
        ih fun d hd => hcode d (List.mem_cons_of_mem _ hd)⟩
  refine List.isChain_append.mpr ⟨List.isChain_append.mpr ⟨hbefore, hdigits, ?_⟩, hafter, ?_⟩
  · intro a _ b hb
    exact hleft a b (hcode b (List.mem_of_head? hb))
  · intro a ha b _
    rw [List.getLast?_append_of_ne_nil _ hne] at ha
    exact hright a b (hcode a (List.mem_of_getLast? ha))

theorem digitFree_noise : (∀ start ∈ linkStarts, start ≠ [] ∧ DigitFree start) ∧
    sharePhrase ≠ [] ∧ DigitFree sharePhrase := by decide

/-- Two quiet texts with digits between them are quiet. -/
theorem IsQuiet.around {before code after : Text} (hbefore : IsQuiet before)
    (hafter : IsQuiet after) (hcode : ∀ c ∈ code, isAsciiDigit c = true) (hne : code ≠ []) :
    IsQuiet (before ++ code ++ after) where
  links start hstart := by
    obtain ⟨hword, hfree⟩ := digitFree_noise.1 start hstart
    rw [occursLike_around hfree hword hcode hne, hbefore.links start hstart,
      hafter.links start hstart, Bool.or_false]
  stops := by
    refine isChain_around (fun _ _ hb _ => not_isAsciiLetter_of_digit hb) (fun a b ha hstop => ?_)
      hcode hne hbefore.stops hafter.stops
    rw [hstop] at ha
    exact absurd ha (by decide)
  quotes c hc := by
    rcases List.mem_append.mp hc with hc | hc
    · rcases List.mem_append.mp hc with hc | hc
      · exact hbefore.quotes c hc
      · exact not_isQuote_of_digit (hcode c hc)
    · exact hafter.quotes c hc
  phrase := by
    obtain ⟨hword, hfree⟩ := digitFree_noise.2
    rw [occursLike_around hfree hword hcode hne, hbefore.phrase, hafter.phrase, Bool.or_false]

end Passcode
