import Passcode.Proofs.Links

/-!
# Remains — what is left of the noise

Each pass goes over its text once, and what it blanks may bring characters together that were apart
before: of `share"OTP` the pass over quotation marks makes the phrase.  Yet nothing of three kinds
is left at the end (`no_noise_left`), each for its own reason.

* What starts a link holds no space, so it stood in the text before all passes
  (`LinkAt.of_maskNoise`), and wherever a link starts its first character is masked.
* No pass makes a quotation mark, and the pass over them takes each one.
* The phrase holds a space with a letter on either side.  The pass over phrases blanks no character
  alone, so if the phrase stood behind it, it stood before it too (`startsLike_of_phrases`), and
  the pass had taken its first character.

And nothing but noise is masked (`inNoise_of_changed`).
-/

namespace Passcode

open Text Noise

variable {t : Text} {i : Nat}

/-! ### Links -/

/-- Where a link starts in the masked text, one started before. -/
theorem LinkAt.of_maskNoise {marker : Text} (h : LinkAt (maskNoise t) i marker) :
    LinkAt t i marker where
  mem := h.mem
  starts := by
    refine startsLike_of_getElem? fun k hk => ?_
    obtain ⟨c, hc, hsame⟩ := startsLike_getElem? h.starts hk
    rw [List.getElem?_drop] at hc ⊢
    have hsolid := (h.solidAt_marker (Nat.le_add_right i k) (Nat.add_lt_add_left hk i)).ne_space
    exact ⟨c, getElem?_of_maskNoise hc fun hspace => hsolid (hspace ▸ hc), hsame⟩
  solid := by
    obtain ⟨c, hc, hsolid⟩ := h.solid
    refine ⟨c, getElem?_of_maskNoise hc fun hspace => ?_, hsolid⟩
    exact h.solid.ne_space (hspace ▸ hc)

/-- **No link starts in a masked text.** -/
theorem not_linkAt_maskNoise (marker : Text) : ¬ LinkAt (maskNoise t) i marker := by
  intro h
  obtain ⟨j, first, -, hji, hij, -, hblank⟩ := exists_masked_link h.of_maskNoise
  have hnonempty : ∀ m ∈ linkStarts, 0 < m.length := by decide
  have hpos := hnonempty marker h.mem
  exact (h.solidAt_marker (Nat.le_refl i) (by omega)).ne_space (hblank i hji hij)

/-! ### Quotation marks -/

/-- The pass over quotation marks takes each one. -/
theorem not_isQuote_of_mem_quotes {c : Char}
    (h : c ∈ blankOut (fun _ => quoteLength) none 0 t) : isQuote c = false := by
  obtain ⟨i, hi⟩ := List.mem_iff_getElem?.mp h
  refine Bool.eq_false_iff.mpr fun hquote => ?_
  have hspace : c ≠ ' ' := fun hspace => absurd (hspace ▸ hquote) (by decide)
  have hget := getElem?_of_blankOut hi hspace
  obtain ⟨hlt, hc⟩ := List.getElem?_eq_some_iff.mp hget
  have hpiece : quoteLength (t.drop i) ≠ 0 := by
    rw [List.drop_eq_getElem_cons hlt, hc, quoteLength, if_pos hquote]
    exact Nat.one_ne_zero
  rw [blankOut_of_piece none 0 t hpiece hlt] at hi
  exact hspace (Option.some.inj hi).symm

/-! ### The phrase -/

/-- The phrase stands behind the pass over phrases only where it stood before. -/
theorem startsLike_of_phrases
    (h : startsLike sharePhrase ((blankOut (fun _ => phraseLength) none 0 t).drop i) = true) :
    startsLike sharePhrase (t.drop i) = true := by
  have hletter : ∀ {k : Nat} (hk : k < sharePhrase.length), ∃ c,
      (blankOut (fun _ => phraseLength) none 0 t)[i + k]? = some c ∧
        sameLetter sharePhrase[k] c = true := by
    intro k hk
    obtain ⟨c, hc, hsame⟩ := startsLike_getElem? h hk
    rw [List.getElem?_drop] at hc
    exact ⟨c, hc, hsame⟩
  have hsolid : ∀ {k : Nat} (hk : k < sharePhrase.length), sharePhrase[k] ≠ ' ' →
      (blankOut (fun _ => phraseLength) none 0 t)[i + k]? ≠ some ' ' := by
    intro k hk hne hspace
    obtain ⟨c, hc, hsame⟩ := hletter hk
    rw [hspace] at hc
    exact hne ((sameLetter_space hsame).mpr (Option.some.inj hc).symm)
  refine startsLike_of_getElem? fun k hk => ?_
  obtain ⟨c, hc, hsame⟩ := hletter hk
  refine ⟨c, ?_, hsame⟩
  rw [List.getElem?_drop]
  by_cases hne : sharePhrase[k] = ' '
  · have honly : ∀ k, (hk : k < sharePhrase.length) → sharePhrase[k] = ' ' → k = 5 := by decide
    obtain rfl := honly k hk hne
    obtain ⟨d, hd, -⟩ := hletter (k := 6) (by decide)
    have hlast := (List.getElem?_eq_some_iff.mp hd).1
    rw [length_blankOut] at hlast
    rw [← blankOut_of_neighbours (fun _ => phraseLength_ne_one) (i := i + 4) hlast
      (hsolid (k := 4) (by decide) (by decide)) (hsolid (k := 6) (by decide) (by decide))]
    exact hc
  · exact getElem?_of_blankOut hc fun hspace => hsolid hk hne (hspace ▸ hc)

/-- Behind the pass over phrases the phrase stands nowhere. -/
theorem not_occursLike_phrases (t : Text) :
    occursLike sharePhrase (blankOut (fun _ => phraseLength) none 0 t) = false := by
  refine Bool.eq_false_iff.mpr fun hoccurs => ?_
  obtain ⟨i, h⟩ := exists_drop_of_occursLike hoccurs
  have hstart := startsLike_of_phrases h
  have hpiece : phraseLength (t.drop i) ≠ 0 := by
    rw [phraseLength, if_pos hstart]
    decide
  have hlt : i < t.length := by
    have := length_le_of_startsLike hstart
    have hlength : sharePhrase.length = 9 := by decide
    rw [List.length_drop] at this
    omega
  obtain ⟨c, hc, hsame⟩ := startsLike_getElem? h (i := 0) (by decide)
  rw [List.getElem?_drop, Nat.add_zero, blankOut_of_piece none 0 t hpiece hlt] at hc
  exact absurd ((sameLetter_space hsame).mpr (Option.some.inj hc).symm) (by decide)

/-! ### All passes -/

/-- The index lies in a link, in a domain that stands there behind the pass over links, at a
quotation mark, or in the phrase as it stands there behind the pass over quotation marks. -/
inductive InNoise (t : Text) (i : Nat) : Prop where
  | link {k : Nat} {marker : Text} (h : LinkAt t k marker) (hk : k ≤ i)
      (hi : i < maskedEnd t k marker)
  | domain {links : Text} {k : Nat} (hlinks : links = blankOut (fun _ => linkLength) none 0 t)
      (hk : k ≤ i) (hi : i < k + domainLength (charBefore none links k) (links.drop k))
  | quote {c : Char} (hget : t[i]? = some c) (hc : isQuote c = true)
  | phrase {quotes : Text} {k : Nat}
      (hquotes : quotes = blankOut (fun _ => quoteLength) none 0
        (blankOut domainLength none 0 (blankOut (fun _ => linkLength) none 0 t)))
      (h : startsLike sharePhrase (quotes.drop k) = true) (hk : k ≤ i)
      (hi : i < k + sharePhrase.length)

/-- What a pass changes lies in a piece that it finds. -/
theorem exists_piece_of_changed {piece : Option Char → Text → Nat}
    (h : (blankOut piece none 0 t)[i]? ≠ t[i]?) :
    ∃ k, k ≤ i ∧ i < k + piece (charBefore none t k) (t.drop k) := by
  rcases blankOut_accounted none 0 t (Nat.zero_le i) with hkeep | ⟨k, hk, hi, -⟩
  · exact absurd hkeep h
  · exact ⟨k, hk, hi⟩

/-- Nothing but noise is masked. -/
theorem inNoise_of_changed {c : Char} (hget : t[i]? = some c) (h : (maskNoise t)[i]? ≠ some c) :
    InNoise t i := by
  obtain ⟨links, domains, quotes, hlinks, hdomains, hquotes, hphrases⟩ := exists_passes t
  by_cases hlink : links[i]? = t[i]?
  · by_cases hdomain : domains[i]? = links[i]?
    · by_cases hquote : quotes[i]? = domains[i]?
      · rw [hphrases, ← hget, ← hlink, ← hdomain, ← hquote] at h
        obtain ⟨k, hk, hi⟩ := exists_piece_of_changed h
        rw [phraseLength] at hi
        split at hi
        · rename_i hstarts
          exact .phrase (by rw [hquotes, hdomains, hlinks]) hstarts hk hi
        · omega
      · have hat : domains[i]? = some c := hdomain.trans (hlink.trans hget)
        rw [hat, hquotes] at hquote
        exact .quote hget (isQuote_of_blanked hat hquote)
    · rw [hdomains] at hdomain
      obtain ⟨k, hk, hi⟩ := exists_piece_of_changed hdomain
      exact .domain hlinks hk hi
  · rw [hlinks] at hlink
    obtain ⟨k, hk, hi⟩ := exists_piece_of_changed hlink
    obtain ⟨marker, hmarker⟩ : ∃ marker, LinkAt t k marker := exists_linkAt (by omega)
    exact .link hmarker hk (hmarker.add_linkLength ▸ hi)

/-- **Masking keeps the length of a text and each character or makes it a space, which it does to
noise alone.  Nothing is left of the quotation marks, of the phrase that asks to share a code and of
the links**, whatever a pass brings together for the ones before and after it. -/
theorem no_noise_left (t : Text) :
    (maskNoise t).length = t.length ∧
    (∀ i, i < t.length →
      (maskNoise t)[i]? = t[i]? ∨ (maskNoise t)[i]? = some ' ' ∧ InNoise t i) ∧
    (∀ c ∈ maskNoise t,
      c ∉ ['"', '\'', '\x60', '\u2018', '\u2019', '\u201C', '\u201D'] ∧ isQuote c = false) ∧
    occursLike "share otp".toList (maskNoise t) = false ∧
    (∀ i, ∀ marker ∈ ["https://".toList, "http://".toList, "www.".toList],
      startsLike marker ((maskNoise t).drop i) = true →
        ∀ c, (maskNoise t)[i + marker.length]? = some c → isBlank c = true) ∧
    ∀ i marker, ¬ LinkAt (maskNoise t) i marker := by
  obtain ⟨links, domains, quotes, -, -, hquotes, hphrases⟩ := exists_passes t
  have hlink (i : Nat) (marker : Text) : ¬ LinkAt (maskNoise t) i marker :=
    not_linkAt_maskNoise marker
  refine ⟨length_maskNoise t, fun i hi => ?_, fun c hc => ?_, ?_,
    fun i marker hmem hstarts c hc => ?_, hlink⟩
  · have hget : t[i]? = some t[i] := List.getElem?_eq_getElem hi
    by_cases hkeep : (maskNoise t)[i]? = some t[i]
    · exact .inl (hkeep.trans hget.symm)
    · exact .inr ⟨(maskNoise_getElem? hget).resolve_left hkeep, inNoise_of_changed hget hkeep⟩
  · have hquote : isQuote c = false := by
      by_cases hspace : c = ' '
      · rw [hspace]; decide
      · obtain ⟨i, hi⟩ := List.mem_iff_getElem?.mp hc
        rw [hphrases] at hi
        have hmem := List.mem_of_getElem? (getElem?_of_blankOut hi hspace)
        rw [hquotes] at hmem
        exact not_isQuote_of_mem_quotes hmem
    refine ⟨fun hmem => ?_, hquote⟩
    have hall : ∀ q ∈ ['"', '\'', '\x60', '\u2018', '\u2019', '\u201C', '\u201D'],
        isQuote q = true := by decide
    cases (hall c hmem).symm.trans hquote
  · rw [hphrases]
    exact not_occursLike_phrases quotes
  · refine (Bool.not_eq_false _).mp fun hsolid => ?_
    exact hlink i marker ⟨hmem, hstarts, c, hc, hsolid⟩

/-- The pass over quotation marks makes the phrase, and the pass behind it takes it. -/
theorem no_noise_left_quoted :
    maskNoise "a share\"OTP".toList = "a          ".toList ∧
      occursLike "share otp".toList (maskNoise "a share\"OTP".toList) = false :=
  ⟨by decide +kernel, (no_noise_left "a share\"OTP".toList).2.2.2.1⟩

end Passcode
