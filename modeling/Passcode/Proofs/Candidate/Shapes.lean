import Passcode.Proofs.Candidate.Spans

/-!
# Shapes — what the span of a candidate holds, and what its code is made of

* `Candidate.FoundIn.last_lt_length`: the span of a candidate ends within the text.
* `span_of_single`: the span of a run of digits or of a token is its code.
* `filter_digit_span`, `digit_or_gap_of_mem_span`: the digits of the span of a group are its code,
  and beside them stand spaces, dashes and quotation marks only.
* `Candidate.FoundIn.length_bounds`, `Candidate.FoundIn.two_le_digits`: a code has three to ten
  characters, that of a group four to eight, and at least two of them are digits.

`span_spells_code` says all of it of the candidates of a message.  Spans are spans of the message as
it is, although candidates are looked for where its noise is blanked.
-/

namespace Passcode

open Text

namespace Candidate.FoundIn

variable {scan : Text} {c : Candidate}

/-! ### Codes -/

theorem length_bounds (h : c.FoundIn scan) : 3 ≤ c.length ∧ c.length ≤ 10 := by
  cases h with
  | numeric _ hlow hhigh => exact ⟨hlow, hhigh⟩
  | grouped _ _ hlow hhigh => exact ⟨Nat.le_of_succ_le hlow, Nat.le_trans hhigh (by decide)⟩
  | @alnum r _ htoken =>
    simp only [isToken, Bool.and_eq_true, decide_eq_true_eq] at htoken
    exact ⟨Nat.le_of_succ_le htoken.1.1.1.2, htoken.1.1.2⟩

theorem length_bounds_of_grouped (h : c.FoundIn scan) (hsource : c.source = .grouped) :
    4 ≤ c.length ∧ c.length ≤ 8 := by
  cases h with
  | numeric => cases hsource
  | grouped _ _ hlow hhigh => exact ⟨hlow, hhigh⟩
  | alnum => cases hsource

theorem isAsciiDigit_of_numeric (h : c.FoundIn scan) (hnumeric : c.numeric = true) :
    ∀ x ∈ c.code, isAsciiDigit x = true := by
  cases h with
  | numeric hr => exact Run.forall_of_mem hr
  | grouped hchain => exact hchain.isAsciiDigit_of_mem_code
  | alnum => cases hnumeric

/-- A code has at least two digits. -/
theorem two_le_digits (h : c.FoundIn scan) : 2 ≤ c.code.countP isAsciiDigit := by
  cases hnumeric : c.numeric with
  | true =>
    rw [List.countP_eq_length.mpr (h.isAsciiDigit_of_numeric hnumeric)]
    exact Nat.le_of_succ_le h.length_bounds.1
  | false =>
    cases h with
    | numeric => cases hnumeric
    | grouped => cases hnumeric
    | alnum _ htoken =>
      simp only [isToken, Bool.and_eq_true, decide_eq_true_eq] at htoken
      exact htoken.1.2

/-- What is called numeric is what has digits only. -/
theorem numeric_iff (h : c.FoundIn scan) :
    c.numeric = true ↔ ∀ x ∈ c.code, isAsciiDigit x = true := by
  refine ⟨h.isAsciiDigit_of_numeric, fun hdigits => ?_⟩
  cases h with
  | numeric => rfl
  | grouped => rfl
  | @alnum r _ htoken =>
    -- A token has a letter, so not all of it are digits.
    simp only [isToken, Bool.and_eq_true, decide_eq_true_eq] at htoken
    exact absurd (List.countP_eq_length.mpr hdigits) (Nat.ne_of_lt htoken.2)

/-! ### Ends of spans -/

/-- A span ends within the text. -/
theorem last_lt_length (h : c.FoundIn scan) : c.last < scan.length := by
  have run : ∀ {p : Char → Bool} {r : Run} {source : Source} {numeric : Bool},
      r ∈ runs p scan → (ofRun source numeric r).last < scan.length := by
    intro p r source numeric hr
    have hle := Run.stop_le_length_of_mem hr
    simp only [ofRun]
    omega
  cases h with
  | numeric hr => exact run hr
  | alnum hr => exact run hr
  | @grouped chain hchain =>
    have hle := hchain.stop_le_length
    rw [ofChain_last]
    omega

end Candidate.FoundIn

/-! ### Spans -/

section Span

variable {text : Text} {c : Candidate}

/-- The span of a run of digits or of a token is its code. -/
theorem span_of_single (h : c ∈ candidatesOf text) (hsource : c.source ≠ .grouped) :
    c.spanIn text = c.code := by
  cases foundIn_of_mem_candidatesOf h with
  | numeric hr => rw [spanIn_ofRun, Run.slice_of_mem_maskNoise (by decide) hr]; rfl
  | alnum hr => rw [spanIn_ofRun, Run.slice_of_mem_maskNoise (by decide) hr]; rfl
  | grouped => exact absurd rfl hsource

theorem isGap_of_digit {x : Char} (h : isAsciiDigit x = true) : isGap x = false :=
  isGap_of_alnum (isAsciiAlnum_of_digit h)

/-- The digits of a numeric span are its code. -/
theorem filter_digit_span (h : c ∈ candidatesOf text) (hnumeric : c.numeric = true) :
    (c.spanIn text).filter isAsciiDigit = c.code := by
  have hdigits := (foundIn_of_mem_candidatesOf h).isAsciiDigit_of_numeric hnumeric
  calc (c.spanIn text).filter isAsciiDigit
      = (c.spanIn text).filter (fun x => isAsciiDigit x && !isGap x) := by
        refine List.filter_congr fun x _ => ?_
        cases hx : isAsciiDigit x with
        | false => rfl
        | true => rw [isGap_of_digit hx]; rfl
    _ = ((c.spanIn text).withoutGaps).filter isAsciiDigit := by
        rw [withoutGaps, List.filter_filter]
    _ = c.code := by rw [code_eq_span h, List.filter_eq_self.mpr hdigits]

/-- A numeric span holds digits, spaces, dashes and quotation marks. -/
theorem digit_or_gap_of_mem_span (h : c ∈ candidatesOf text) (hnumeric : c.numeric = true) :
    ∀ x ∈ c.spanIn text, isAsciiDigit x = true ∨ isGap x = true := by
  intro x hx
  cases hgap : isGap x with
  | true => exact .inr rfl
  | false =>
    have hmem : x ∈ (c.spanIn text).withoutGaps :=
      List.mem_filter.mpr ⟨hx, by rw [hgap]; rfl⟩
    rw [code_eq_span h] at hmem
    exact .inl ((foundIn_of_mem_candidatesOf h).isAsciiDigit_of_numeric hnumeric x hmem)

theorem numeric_of_grouped (h : c ∈ candidatesOf text) (hsource : c.source = .grouped) :
    c.numeric = true := by
  cases foundIn_of_mem_candidatesOf h with
  | numeric => rfl
  | grouped => rfl
  | alnum => cases hsource

/-- **The span of a candidate spells its code in the message itself.**  A span lies within the
message.  That of a run of digits or of a token is the code; that of a group has the digits of the
code, in order, and beside them only spaces, dashes and quotation marks.  A code has three to ten
plain letters and digits, that of a group four to eight, at least two of them digits, and it is
numeric exactly if all of them are. -/
theorem span_spells_code (h : c ∈ candidatesOf text) :
    (0 ≤ c.first ∧ c.first ≤ c.last ∧ c.last < text.length) ∧
    (c.source = .numeric ∨ c.source = .alnum → c.spanIn text = c.code) ∧
    (c.source = .grouped →
      (c.spanIn text).filter isAsciiDigit = c.code ∧
        ∀ x ∈ c.spanIn text, isAsciiDigit x = true ∨ x = ' ' ∨ x = '-' ∨
          Noise.isQuote x = true) ∧
    (∀ x ∈ c.code, isAsciiDigit x = true ∨ isAsciiLetter x = true) ∧
    (3 ≤ c.code.length ∧ c.code.length ≤ 10) ∧
    (c.source = .grouped → 4 ≤ c.code.length ∧ c.code.length ≤ 8) ∧
    2 ≤ c.code.countP isAsciiDigit ∧
    (c.numeric = true ↔ ∀ x ∈ c.code, isAsciiDigit x = true) := by
  have hfound := foundIn_of_mem_candidatesOf h
  have hlast := hfound.last_lt_length
  rw [length_maskNoise] at hlast
  refine ⟨⟨hfound.first_le_last.1, hfound.first_le_last.2, hlast⟩, fun hsource => ?_,
    fun hsource => ⟨filter_digit_span h (numeric_of_grouped h hsource), fun x hx => ?_⟩,
    fun x hx => ?_, hfound.length_bounds, hfound.length_bounds_of_grouped, hfound.two_le_digits,
    hfound.numeric_iff⟩
  · refine span_of_single h fun hgrouped => ?_
    rcases hsource with hsource | hsource <;> rw [hsource] at hgrouped <;> cases hgrouped
  · refine (digit_or_gap_of_mem_span h (numeric_of_grouped h hsource) x hx).imp_right fun hgap => ?_
    rcases Bool.or_eq_true_iff.mp hgap with hsep | hquote
    · rcases Bool.or_eq_true_iff.mp hsep with hspace | hdash
      · exact .inl (of_decide_eq_true hspace)
      · exact .inr (.inl (of_decide_eq_true hdash))
    · exact .inr (.inr hquote)
  · exact Bool.or_eq_true_iff.mp (isAsciiAlnum_of_mem_code hfound x hx)

end Span

/-- A group parted by a quotation mark and a dash. -/
def quotedGroup : Candidate := ⟨"123456".toList, 5, 12, true, .grouped⟩

theorem span_spells_code_quoted :
    quotedGroup ∈ candidatesOf "PIN: 12'34-56".toList ∧
      (quotedGroup.spanIn "PIN: 12'34-56".toList).filter isAsciiDigit = "123456".toList ∧
        ∀ x ∈ quotedGroup.spanIn "PIN: 12'34-56".toList, isAsciiDigit x = true ∨ x = ' ' ∨
          x = '-' ∨ Noise.isQuote x = true := by
  have hmem : quotedGroup ∈ candidatesOf "PIN: 12'34-56".toList := by decide +kernel
  exact ⟨hmem, (span_spells_code hmem).2.2.1 rfl⟩

end Passcode
