import Passcode.Proofs.Candidate.Spans
import Passcode.Proofs.Explanation

/-!
# Provenance — where a reported code stands in the message

A code that is reported is the code of the winner, and the span of the winner spells it
(`reported_code_provenance`): without spaces, dashes and quotation marks the span is the code.

Quotation marks are blanked before candidates are looked for, so one of them parts two groups of
digits just as a space does, and it is still there when the spaces and the dashes of the text are
taken out.  The code then stands in what is left only if a stretch without quotation marks spells
it, which the span of the winner does exactly if it has none itself.
-/

namespace Passcode

/-! ### Texts from which characters are taken out -/

/-- A text stands in what is left of another exactly if it is what is left of a stretch of it. -/
theorem infix_filter_iff {α : Type} {p : α → Bool} {s t : List α} :
    s <:+: t.filter p ↔ ∃ u, u <:+: t ∧ u.filter p = s := by
  constructor
  · rintro ⟨before, behind, h⟩
    obtain ⟨front, rest, rfl, hfront, -⟩ := List.filter_eq_append_iff.mp h.symm
    obtain ⟨u, v, rfl, -, hu⟩ := List.filter_eq_append_iff.mp hfront
    exact ⟨v, ⟨u, rest, rfl⟩, hu⟩
  · rintro ⟨u, hu, rfl⟩
    exact hu.filter p

/-- A text of plain letters and digits stands in another without spaces and dashes exactly if a
stretch without quotation marks spells it. -/
theorem infix_withoutSeparators_iff {code t : Text}
    (halnum : ∀ x ∈ code, Text.isAsciiAlnum x = true) :
    code <:+: t.withoutSeparators ↔
      ∃ s : Text, s <:+: t ∧ s.withoutSeparators = code ∧ ∀ x ∈ s, Noise.isQuote x = false := by
  constructor
  · intro h
    obtain ⟨s, hs, hcode⟩ := infix_filter_iff.mp h
    exact ⟨s, hs, hcode, forall_not_quote_of_withoutSeparators hcode halnum⟩
  · rintro ⟨s, hs, hcode, -⟩
    exact infix_filter_iff.mpr ⟨s, hs, hcode⟩

namespace Detector

/-- **Provenance**: a reported code is the code of the winner, and it is what the span of the winner
leaves in the normal form of the message without spaces, dashes and quotation marks.  Spaces and
dashes are enough exactly if the span has no quotation mark; and the code stands in the text without
spaces and dashes exactly if some stretch without quotation marks spells it. -/
theorem reported_code_provenance (d : Detector) (hd : d.settings.WithinBounds) (raw : Text) :
    ∃ l, d.explain raw = .ok l ∧ l.value.message = d.messageOf raw ∧
      ∀ code, l.value.verdict.code = some code →
        code <:+: l.value.message.text.withoutGaps ∧
        (code <:+: l.value.message.text.withoutSeparators ↔
          ∃ s : Text, s <:+: l.value.message.text ∧ s.withoutSeparators = code ∧
            ∀ x ∈ s, Noise.isQuote x = false) ∧
        ∃ w, winner? l.value.candidates = some w ∧ w.candidate.code = code ∧
          (w.candidate.spanIn l.value.message.text).withoutGaps = code ∧
          ((w.candidate.spanIn l.value.message.text).withoutSeparators = code ↔
            ∀ x ∈ w.candidate.spanIn l.value.message.text, Noise.isQuote x = false) := by
  obtain ⟨l, hexplain, hmessage, hcandidates, hcode⟩ := exists_explanation hd raw
  refine ⟨l, hexplain, hmessage, fun code h => ?_⟩
  obtain ⟨w, hw, rfl⟩ := hcode code h
  have hmem : w.candidate ∈ candidatesOf l.value.message.text := by
    rw [hmessage, ← scoresOf_candidates]
    exact List.mem_map_of_mem (winner?_max hw).1
  -- The code is what is left of the span, and the span is a stretch of the text.
  have hspan := code_eq_span hmem
  refine ⟨?_, infix_withoutSeparators_iff
    (isAsciiAlnum_of_mem_code (foundIn_of_mem_candidatesOf hmem)), w, ?_, rfl, hspan,
    withoutSeparators_span_iff hmem⟩
  · exact infix_filter_iff.mpr ⟨_, Text.slice_infix _ _ _, hspan⟩
  · rw [hcandidates]; exact hw

/-- A message with a code that a quotation mark parts. -/
def quotedCode : Text := "OTP is 123'456".toList

theorem code_quotedCode :
    (plain.explain quotedCode).toOption.bind (fun l => l.value.verdict.code) =
      some "123456".toList := by decide +kernel

/-- The code is reported, and the text without spaces and dashes does not hold it. -/
theorem reported_code_quoted :
    plain.settings.WithinBounds ∧
      ∃ l, plain.explain quotedCode = .ok l ∧ l.value.verdict.code = some "123456".toList ∧
        "123456".toList <:+: l.value.message.text.withoutGaps ∧
          ¬ "123456".toList <:+: l.value.message.text.withoutSeparators := by
  obtain ⟨l, hexplain, hmessage, hprovenance⟩ :=
    reported_code_provenance plain plain_withinBounds quotedCode
  have hcode := code_quotedCode
  rw [hexplain] at hcode
  refine ⟨plain_withinBounds, l, hexplain, hcode, (hprovenance _ hcode).1, ?_⟩
  rw [hmessage]
  decide +kernel

end Detector

end Passcode
