import Passcode.Noise

/-!
# Masked noise — what it was, and what stands beside it

* `blankOut_accounted`: after one pass over a text, each character is kept, or it lies in a piece
  of noise that is blanked whole.
* `length_maskNoise`, `maskNoise_getElem?`: masking keeps the length, and at each index the
  character or a space.
* `isQuote_of_alone`: a character that is masked while both its neighbours are not was a quotation
  mark.  Links, domains and the phrase are never a single character (`linkLength_ne_one` and the
  lemmas beside it), so each of their characters has a blanked neighbour, and later passes keep
  blanks.
-/

namespace Passcode

namespace Noise

/-! ### One pass -/

section Pass

variable {piece : Option Char → Text → Nat}

/-- The character before index `i` of a text that stands behind the character `before`. -/
def charBefore (before : Option Char) (t : Text) : Nat → Option Char
  | 0 => before
  | i + 1 => t[i]?

theorem charBefore_cons_succ (before : Option Char) (c : Char) (cs : Text) (i : Nat) :
    charBefore before (c :: cs) (i + 1) = charBefore (some c) cs i := by
  cases i <;> rfl

/-- Blanking out keeps the length. -/
theorem length_blankOut (before : Option Char) (left : Nat) (t : Text) :
    (blankOut piece before left t).length = t.length := by
  induction t generalizing before left with
  | nil => cases left <;> rfl
  | cons c cs ih =>
    cases left with
    | succ left => simp only [blankOut, List.length_cons, ih]
    | zero => simp only [blankOut]; split <;> simp only [List.length_cons, ih]

/-- What is left of the last piece is blanked. -/
theorem blankOut_of_lt_left (before : Option Char) (left : Nat) (t : Text) {i : Nat}
    (hi : i < left) (ht : i < t.length) :
    (blankOut piece before left t)[i]? = some ' ' := by
  induction t generalizing before left i with
  | nil => cases ht
  | cons c cs ih =>
    obtain ⟨left, rfl⟩ : ∃ n, left = n + 1 := ⟨left - 1, by omega⟩
    cases i with
    | zero => rfl
    | succ i =>
      rw [blankOut, List.getElem?_cons_succ]
      exact ih (some c) left (by omega) (by rw [List.length_cons] at ht; omega)

/-- The character at an index is kept, or it lies in a piece that is blanked whole. -/
def Accounted (piece : Option Char → Text → Nat) (before : Option Char) (t out : Text) (i : Nat) :
    Prop :=
  out[i]? = t[i]? ∨
    ∃ k, k ≤ i ∧ i < k + piece (charBefore before t k) (t.drop k) ∧
      ∀ j, k ≤ j → j < k + piece (charBefore before t k) (t.drop k) → j < t.length →
        out[j]? = some ' '

/-- What is accounted for behind a character is accounted for with it. -/
theorem Accounted.cons {before : Option Char} {c e : Char} {cs out : Text} {i : Nat}
    (h : Accounted piece (some c) cs out i) :
    Accounted piece before (c :: cs) (e :: out) (i + 1) := by
  rcases h with hkeep | ⟨k, hk, hi, hblank⟩
  · exact .inl (by rw [List.getElem?_cons_succ, List.getElem?_cons_succ]; exact hkeep)
  · refine .inr ⟨k + 1, by omega, ?_, ?_⟩ <;> rw [charBefore_cons_succ, List.drop_succ_cons]
    · omega
    · intro j hj hjk hlen
      obtain ⟨j, rfl⟩ : ∃ j', j = j' + 1 := ⟨j - 1, by omega⟩
      rw [List.getElem?_cons_succ]
      exact hblank j (by omega) (by omega) (by rw [List.length_cons] at hlen; omega)

theorem blankOut_accounted (before : Option Char) (left : Nat) (t : Text) {i : Nat}
    (hi : left ≤ i) : Accounted piece before t (blankOut piece before left t) i := by
  induction t generalizing before left i with
  | nil => exact .inl (by cases left <;> rfl)
  | cons d ds ih =>
    -- Behind the first character the pass goes on, with some of a piece still to go.
    have later : ∀ {left' : Nat} {e : Char}, left' + 1 ≤ i →
        blankOut piece before left (d :: ds) = e :: blankOut piece (some d) left' ds →
        Accounted piece before (d :: ds) (blankOut piece before left (d :: ds)) i := by
      intro left' e hleft hout
      obtain ⟨i, rfl⟩ : ∃ i', i = i' + 1 := ⟨i - 1, by omega⟩
      rw [hout]
      exact (ih (some d) left' (by omega)).cons
    cases left with
    | succ left => exact later hi rfl
    | zero =>
      cases hp : piece before (d :: ds) with
      | zero =>
        have hout : blankOut piece before 0 (d :: ds) = d :: blankOut piece (some d) 0 ds := by
          simp only [blankOut, hp]
        cases i with
        | zero => exact .inl (by rw [hout]; rfl)
        | succ i => exact later (by omega) hout
      | succ n =>
        have hout : blankOut piece before 0 (d :: ds) = ' ' :: blankOut piece (some d) n ds := by
          simp only [blankOut, hp]
        rcases Nat.lt_or_ge i (n + 1) with hin | hin
        · refine .inr ⟨0, Nat.zero_le i, ?_, ?_⟩ <;>
            rw [charBefore, List.drop_zero, hp, Nat.zero_add]
          · exact hin
          · intro j _ hj hlen
            rw [hout]
            cases j with
            | zero => rfl
            | succ j =>
              rw [List.getElem?_cons_succ]
              exact blankOut_of_lt_left (some d) n ds (by omega)
                (by rw [List.length_cons] at hlen; omega)
        · exact later hin hout

/-- One pass keeps each character or blanks it. -/
theorem blankOut_getElem? (piece : Option Char → Text → Nat) (t : Text) {i : Nat} {c : Char}
    (h : t[i]? = some c) :
    (blankOut piece none 0 t)[i]? = some c ∨ (blankOut piece none 0 t)[i]? = some ' ' := by
  rcases blankOut_accounted none 0 t (Nat.zero_le i) with hkeep | ⟨k, hk, hi, hblank⟩
  · exact .inl (hkeep.trans h)
  · exact .inr (hblank i hk hi (List.getElem?_eq_some_iff.mp h).1)

/-- What is not a space after a pass was there before. -/
theorem getElem?_of_blankOut {t : Text} {i : Nat} {c : Char}
    (h : (blankOut piece none 0 t)[i]? = some c) (hc : c ≠ ' ') : t[i]? = some c := by
  have hi : i < t.length := length_blankOut none 0 t ▸ (List.getElem?_eq_some_iff.mp h).1
  have hget : t[i]? = some t[i] := List.getElem?_eq_getElem hi
  rcases blankOut_getElem? piece t hget with hkeep | hblank
  · rw [hget, ← hkeep, h]
  · rw [h] at hblank
    exact absurd (Option.some.inj hblank) hc

/-- A space stays one. -/
theorem blankOut_space (t : Text) {i : Nat} (h : t[i]? = some ' ') :
    (blankOut piece none 0 t)[i]? = some ' ' := by
  rcases blankOut_getElem? piece t h with h | h <;> exact h

/-- Where no piece is a single character, a character between two that are not blank afterwards is
kept. -/
theorem blankOut_of_neighbours (hwide : ∀ before t, piece before t ≠ 1) {t : Text} {i : Nat}
    (hlast : i + 2 < t.length) (hleft : (blankOut piece none 0 t)[i]? ≠ some ' ')
    (hright : (blankOut piece none 0 t)[i + 2]? ≠ some ' ') :
    (blankOut piece none 0 t)[i + 1]? = t[i + 1]? := by
  rcases blankOut_accounted none 0 t (Nat.zero_le (i + 1)) with hkeep | ⟨k, hk, hi, hblank⟩
  · exact hkeep
  · have hne := hwide (charBefore none t k) (t.drop k)
    rcases Nat.lt_or_ge k (i + 1) with hki | hki
    · exact absurd (hblank i (by omega) (by omega) (by omega)) hleft
    · exact absurd (hblank (i + 2) (by omega) (by omega) hlast) hright

end Pass

/-! ### The kinds of noise -/

theorem linkLength_ne_one (t : Text) : linkLength t ≠ 1 := by
  unfold linkLength
  split
  · rename_i start hstart
    have hall : ∀ s ∈ linkStarts, 4 ≤ s.length := by decide
    have hlong := hall start (List.mem_of_find?_eq_some hstart)
    dsimp only
    split <;> omega
  · decide

theorem domainLength_ne_one (before : Option Char) (t : Text) : domainLength before t ≠ 1 := by
  unfold domainLength
  split
  · decide
  · split
    · decide
    · dsimp only
      split
      · split
        · decide
        · omega
      · decide

theorem phraseLength_ne_one (t : Text) : phraseLength t ≠ 1 := by
  unfold phraseLength
  split <;> decide

/-- Only a quotation mark is blanked out as one. -/
theorem isQuote_of_quoteLength {t : Text} {c : Char} (h : t.head? = some c)
    (hquote : quoteLength t ≠ 0) : isQuote c = true := by
  cases t with
  | nil => cases h
  | cons d ds =>
    cases h
    cases hc : isQuote c with
    | true => rfl
    | false => exact absurd (by simp only [quoteLength, hc, Bool.false_eq_true, if_false]) hquote

theorem quoteLength_le_one (t : Text) : quoteLength t ≤ 1 := by
  cases t with
  | nil => decide
  | cons c cs => rw [quoteLength]; split <;> decide

/-- What the pass over quotation marks blanks is one. -/
theorem isQuote_of_blanked {t : Text} {i : Nat} {c : Char} (h : t[i]? = some c)
    (hchange : (blankOut (fun _ => quoteLength) none 0 t)[i]? ≠ some c) : isQuote c = true := by
  rcases blankOut_accounted none 0 t (Nat.zero_le i) with hkeep | ⟨k, hk, hi, -⟩
  · exact absurd (hkeep.trans h) hchange
  · have hle := quoteLength_le_one (t.drop k)
    obtain rfl : k = i := by omega
    exact isQuote_of_quoteLength (t := t.drop k) (by rw [List.head?_drop]; exact h) (by omega)

end Noise

/-! ### All passes -/

open Noise

/-- The text after the passes over links, over domains and over quotation marks. -/
theorem exists_passes (t : Text) :
    ∃ links domains quotes, links = blankOut (fun _ => linkLength) none 0 t ∧
      domains = blankOut domainLength none 0 links ∧
        quotes = blankOut (fun _ => quoteLength) none 0 domains ∧
          maskNoise t = blankOut (fun _ => phraseLength) none 0 quotes :=
  ⟨_, _, _, rfl, rfl, rfl, rfl⟩

/-- Masking the noise of a text keeps its length. -/
theorem length_maskNoise (t : Text) : (maskNoise t).length = t.length := by
  simp only [maskNoise, length_blankOut]

/-- Masking keeps each character or makes it a space. -/
theorem maskNoise_getElem? {t : Text} {i : Nat} {c : Char} (h : t[i]? = some c) :
    (maskNoise t)[i]? = some c ∨ (maskNoise t)[i]? = some ' ' := by
  unfold maskNoise
  dsimp only
  rcases blankOut_getElem? (fun _ => linkLength) t h with h | h
  · rcases blankOut_getElem? domainLength _ h with h | h
    · rcases blankOut_getElem? (fun _ => quoteLength) _ h with h | h
      · exact blankOut_getElem? _ _ h
      · exact .inr (blankOut_space _ h)
    · exact .inr (blankOut_space _ (blankOut_space _ h))
  · exact .inr (blankOut_space _ (blankOut_space _ (blankOut_space _ h)))

/-- What is not blank after masking was there before. -/
theorem getElem?_of_maskNoise {t : Text} {i : Nat} {c : Char} (h : (maskNoise t)[i]? = some c)
    (hc : c ≠ ' ') : t[i]? = some c :=
  getElem?_of_blankOut (getElem?_of_blankOut (getElem?_of_blankOut (getElem?_of_blankOut h hc) hc)
    hc) hc

/-- A character other than a space that is masked while neither of its neighbours is blank
afterwards was a quotation mark. -/
theorem isQuote_of_alone {t : Text} {i : Nat} {c : Char} (h : t[i + 1]? = some c) (hc : c ≠ ' ')
    (hmask : (maskNoise t)[i + 1]? = some ' ') (hlast : i + 2 < t.length)
    (hleft : (maskNoise t)[i]? ≠ some ' ') (hright : (maskNoise t)[i + 2]? ≠ some ' ') :
    isQuote c = true := by
  obtain ⟨links, domains, quotes, hlinks, hdomains, hquotes, hphrases⟩ := exists_passes t
  -- What is not blank in the end is blank after none of the passes.
  have solid : ∀ {piece : Option Char → Text → Nat} {u v : Text} {j : Nat},
      v = blankOut piece none 0 u → v[j]? ≠ some ' ' → u[j]? ≠ some ' ' :=
    fun hv hj hu => hj (hv ▸ blankOut_space _ hu)
  have hleft' := solid hphrases hleft
  have hright' := solid hphrases hright
  -- Neither a link nor a domain took `c`, or it would have taken a neighbour too.
  have hlinked : links[i + 1]? = some c := by
    rw [hlinks] at hdomains ⊢
    rw [blankOut_of_neighbours (fun _ => linkLength_ne_one) hlast
      (solid hdomains (solid hquotes hleft')) (solid hdomains (solid hquotes hright'))]
    exact h
  have hnamed : domains[i + 1]? = some c := by
    rw [hdomains] at hquotes ⊢
    rw [blankOut_of_neighbours domainLength_ne_one (by rw [hlinks, length_blankOut]; exact hlast)
      (solid hquotes hleft') (solid hquotes hright')]
    exact hlinked
  refine isQuote_of_blanked hnamed fun hquoted => ?_
  -- Nor did the phrase: had the pass over quotation marks kept `c`, it would still be there.
  have hkept : (maskNoise t)[i + 1]? = some c := by
    rw [hphrases] at hleft hright ⊢
    rw [blankOut_of_neighbours (fun _ => phraseLength_ne_one) ?_ hleft hright, hquotes]
    · exact hquoted
    · rw [hquotes, hdomains, hlinks]; simpa only [length_blankOut] using hlast
  rw [hmask] at hkept
  exact hc (Option.some.inj hkept).symm

end Passcode
