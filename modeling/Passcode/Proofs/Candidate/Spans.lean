import Passcode.Proofs.Candidate.Chains
import Passcode.Proofs.Noise

/-!
# Spans — the code of a candidate, read off the message itself

Candidates are found in the masked text, but their spans are spans of the text.

* `slice_maskNoise`: a stretch in which nothing is blank after masking stands in the text as well.
* `gap_of_linked`: what parts two linked chunks in the text is a space, a dash, or a quotation mark
  that was masked.
* `code_eq_span`: the code of a candidate is its span without spaces, dashes and quotation marks.
* `withoutSeparators_span_iff`: taking out spaces and dashes is enough exactly if the span has no
  quotation mark.

A grouped candidate comes from a chain of linked chunks (`Linked`), and what is said of its span is
proved by induction on the chain.
-/

namespace Passcode

/-! ### What masking leaves of a stretch -/

/-- A stretch in which nothing is blank after masking stands in the text as well. -/
theorem slice_maskNoise {t : Text} {a b : Nat} (h : ' ' ∉ Text.slice (maskNoise t) a b) :
    Text.slice t a b = Text.slice (maskNoise t) a b := by
  refine List.ext_getElem? fun i => ?_
  rcases Nat.lt_or_ge (a + i) b with hi | hi
  · rw [Text.slice_getElem? t hi, Text.slice_getElem? _ hi]
    cases hc : t[a + i]? with
    | none =>
      rw [List.getElem?_eq_none_iff] at hc
      rw [List.getElem?_eq_none (by rw [length_maskNoise]; exact hc)]
    | some c =>
      rcases maskNoise_getElem? hc with hkeep | hblank
      · exact hkeep.symm
      · exact absurd (List.mem_of_getElem? ((Text.slice_getElem? _ hi).trans hblank)) h
  · rw [List.getElem?_eq_none, List.getElem?_eq_none] <;>
      rw [Text.slice_natCast, List.length_drop, List.length_take] <;> omega

namespace Run

variable {p : Char → Bool} {t : Text} {r : Run}

/-- A run of characters none of which is blank is found in the text as it is in the masked one. -/
theorem slice_of_mem_maskNoise (hp : p ' ' = false) (h : r ∈ Text.runs p (maskNoise t)) :
    Text.slice t r.start r.stop = r.body := by
  rw [← slice_of_mem h]
  refine slice_maskNoise fun hblank => ?_
  rw [slice_of_mem h] at hblank
  rw [forall_of_mem h _ hblank] at hp
  cases hp

end Run

/-! ### Chains of chunks -/

/-- A space or a dash. -/
def Text.isSeparator (c : Char) : Bool := c = ' ' || c = '-'

/-- What may stand in the span of a code beside its own characters. -/
def Text.isGap (c : Char) : Bool := isSeparator c || Noise.isQuote c

/-- A digit of the masked text is a digit of the text, and no space. -/
theorem digit_of_maskNoise {t : Text} {i : Nat}
    (h : ∃ c, (maskNoise t)[i]? = some c ∧ Text.isAsciiDigit c = true) :
    (maskNoise t)[i]? ≠ some ' ' ∧ ∃ c, t[i]? = some c ∧ Text.isAsciiDigit c = true := by
  obtain ⟨c, hc, hdigit⟩ := h
  have hspace : c ≠ ' ' := fun hc' => absurd (hc' ▸ hdigit) (by decide)
  exact ⟨fun hs => hspace (Option.some.inj (hc.symm.trans hs)), c, getElem?_of_maskNoise hc hspace,
    hdigit⟩

/-- What parts two linked chunks in the text is a space, a dash, or a quotation mark that was
masked. -/
theorem gap_of_linked {t : Text} {a b : Run} (ha : a ∈ chunks (maskNoise t))
    (hb : b ∈ chunks (maskNoise t)) (h : a.linkedTo b = true) :
    b.start = a.stop + 1 ∧ ∃ c, t[a.stop]? = some c ∧ Text.isGap c = true := by
  have hra := (mem_runs_of_mem_chunks ha).1
  have hrb := (mem_runs_of_mem_chunks hb).1
  obtain ⟨hafter, hnext⟩ := Run.linkedTo_iff.mp h
  rw [Run.after_of_mem hra] at hafter
  have hstart := Run.start_lt_stop_of_mem hra
  obtain ⟨i, hi⟩ : ∃ i, a.stop = i + 1 := ⟨a.stop - 1, by omega⟩
  obtain ⟨hleft, -⟩ :=
    digit_of_maskNoise (i := i) (Run.exists_of_mem hra (by omega) (by omega))
  obtain ⟨hright, c, hc, -⟩ := digit_of_maskNoise
    (Run.exists_of_mem hrb (Nat.le_refl _) (Run.start_lt_stop_of_mem hrb))
  have hlast : b.start < t.length := (List.getElem?_eq_some_iff.mp hc).1
  rw [hi] at hafter hnext ⊢
  rw [hnext] at hright hlast
  refine ⟨hnext, t[i + 1], List.getElem?_eq_getElem (by omega), ?_⟩
  have hget : t[i + 1]? = some t[i + 1] := List.getElem?_eq_getElem (by omega)
  simp only [Text.isGap, Text.isSeparator, Bool.or_eq_true, decide_eq_true_eq]
  by_cases hspace : t[i + 1] = ' '
  · exact .inl (.inl hspace)
  · rcases hafter with hmask | hmask
    · exact .inr (isQuote_of_alone hget hspace hmask hlast hleft hright)
    · rcases maskNoise_getElem? hget with hkeep | hblank
      · rw [hmask] at hkeep
        exact .inl (.inr (Option.some.inj hkeep).symm)
      · rw [hmask] at hblank
        exact absurd hblank (by decide)

/-! ### Spans -/

/-- The stretch of a text that the span of a candidate covers. -/
def Candidate.spanIn (t : Text) (c : Candidate) : Text := Text.slice t c.first (c.last + 1)

/-- A text without spaces and dashes. -/
def Text.withoutSeparators (t : Text) : Text := t.filter (fun c => !isSeparator c)

/-- A text without spaces, dashes and quotation marks. -/
def Text.withoutGaps (t : Text) : Text := t.filter (fun c => !isGap c)

theorem isGap_of_alnum {c : Char} (h : Text.isAsciiAlnum c = true) : Text.isGap c = false := by
  cases hgap : Text.isGap c with
  | false => rfl
  | true =>
    simp only [Text.isGap, Text.isSeparator, Noise.isQuote, Bool.or_eq_true,
      decide_eq_true_eq] at hgap
    rcases hgap with (rfl | rfl) | (((((rfl | rfl) | rfl) | rfl) | rfl) | rfl) | rfl <;>
      exact absurd h (by decide)

/-- Letters and digits have no gaps to be dropped. -/
theorem withoutGaps_of_alnum {t : Text} (h : ∀ c ∈ t, Text.isAsciiAlnum c = true) :
    t.withoutGaps = t :=
  List.filter_eq_self.mpr fun c hc => by rw [isGap_of_alnum (h c hc)]; rfl

theorem isAsciiAlnum_of_digit {c : Char} (h : Text.isAsciiDigit c = true) :
    Text.isAsciiAlnum c = true := by
  rw [Text.isAsciiAlnum, h, Bool.true_or]

/-- The span of a chain, without what parts its chunks, is its code. -/
theorem Linked.withoutGaps_slice {t : Text} {chain : List Run} (h : Linked (maskNoise t) chain) :
    (Text.slice t (chainStart chain) (chainStop chain)).withoutGaps = chainCode chain := by
  have chunk : ∀ {r : Run}, r ∈ chunks (maskNoise t) →
      (Text.slice t r.start r.stop).withoutGaps = r.body := by
    intro r hr
    have hrun := (mem_runs_of_mem_chunks hr).1
    rw [Run.slice_of_mem_maskNoise (by decide) hrun]
    exact withoutGaps_of_alnum fun c hc => isAsciiAlnum_of_digit (Run.forall_of_mem hrun c hc)
  induction h with
  | single hr =>
    rename_i r
    rw [chainCode_cons, chainCode, List.flatMap_nil, List.append_nil]
    exact chunk hr
  | cons hr hlink hrest ih =>
    rename_i r s ss
    obtain ⟨hnext, c, hc, hgap⟩ := gap_of_linked hr (hrest.mem_chunks s List.mem_cons_self) hlink
    have hrun := Run.start_lt_stop_of_mem (mem_runs_of_mem_chunks hr).1
    have hlast : s.start < chainStop (s :: ss) := hrest.start_lt_stop
    -- The span is the first chunk, what parts it from the next one, and the span of the rest.
    have hsplit : Text.slice t r.start (chainStop (s :: ss)) =
        Text.slice t r.start r.stop ++ [c] ++ Text.slice t s.start (chainStop (s :: ss)) := by
      rw [← Text.slice_succ hc, ← hnext, List.append_assoc,
        Text.slice_append t (by omega) (by omega), Text.slice_append t (by omega) (by omega)]
    have hone : Text.withoutGaps [c] = [] := by
      simp only [Text.withoutGaps, List.filter_cons, hgap, Bool.not_true, Bool.false_eq_true,
        if_false, List.filter_nil]
    calc (Text.slice t r.start (chainStop (s :: ss))).withoutGaps
        = (Text.slice t r.start r.stop).withoutGaps ++ Text.withoutGaps [c] ++
            (Text.slice t s.start (chainStop (s :: ss))).withoutGaps := by
          rw [hsplit]; simp only [Text.withoutGaps, List.filter_append]
      _ = r.body ++ chainCode (s :: ss) := by
          rw [chunk hr, hone, List.append_nil]; exact congrArg (r.body ++ ·) ih
      _ = chainCode (r :: s :: ss) := (chainCode_cons r (s :: ss)).symm

/-- The span of a run is the run. -/
theorem spanIn_ofRun (t : Text) (source : Source) (numeric : Bool) (r : Run) :
    (Candidate.ofRun source numeric r).spanIn t = Text.slice t r.start r.stop := by
  rw [Candidate.spanIn, Candidate.ofRun, Int.sub_add_cancel]

/-- The span of a chain goes from its first chunk to the end of its last one. -/
theorem spanIn_ofChain (t : Text) (chain : List Run) :
    (Candidate.ofChain chain).spanIn t = Text.slice t (chainStart chain) (chainStop chain) := by
  rw [Candidate.spanIn, ofChain_last, ofChain_first, Int.sub_add_cancel]

/-- A span has a character at least. -/
theorem Candidate.FoundIn.first_le_last {scan : Text} {c : Candidate} (h : c.FoundIn scan) :
    0 ≤ c.first ∧ c.first ≤ c.last := by
  have run : ∀ {p : Char → Bool} {r : Run} {source : Source} {numeric : Bool},
      r ∈ Text.runs p scan → 0 ≤ (ofRun source numeric r).first ∧
        (ofRun source numeric r).first ≤ (ofRun source numeric r).last := by
    intro p r source numeric hr
    have hlt := Run.start_lt_stop_of_mem hr
    simp only [ofRun]
    omega
  cases h with
  | numeric hr => exact run hr
  | alnum hr => exact run hr
  | @grouped chain hchain =>
    have hlt := hchain.start_lt_stop
    rw [ofChain_first, ofChain_last]
    omega

/-- A code has plain letters and digits only. -/
theorem isAsciiAlnum_of_mem_code {scan : Text} {c : Candidate} (h : c.FoundIn scan) :
    ∀ x ∈ c.code, Text.isAsciiAlnum x = true := by
  intro x hx
  cases h with
  | numeric hr => exact isAsciiAlnum_of_digit (Run.forall_of_mem hr x hx)
  | grouped hchain => exact isAsciiAlnum_of_digit (hchain.isAsciiDigit_of_mem_code x hx)
  | alnum hr htoken =>
    simp only [isToken, Bool.and_eq_true] at htoken
    exact List.all_eq_true.mp htoken.1.1.1.1 x hx

/-- The code of a candidate is its span without spaces, dashes and quotation marks. -/
theorem code_eq_span {text : Text} {c : Candidate} (h : c ∈ candidatesOf text) :
    (c.spanIn text).withoutGaps = c.code := by
  have hfound := foundIn_of_mem_candidatesOf h
  have halnum := isAsciiAlnum_of_mem_code hfound
  cases hfound with
  | numeric hr =>
    rw [spanIn_ofRun, Run.slice_of_mem_maskNoise (by decide) hr]
    exact withoutGaps_of_alnum halnum
  | grouped hchain => rw [spanIn_ofChain]; exact hchain.withoutGaps_slice
  | alnum hr =>
    rw [spanIn_ofRun, Run.slice_of_mem_maskNoise (by decide) hr]
    exact withoutGaps_of_alnum halnum

/-- Where spaces and dashes are taken out and plain letters and digits are left, there was no
quotation mark. -/
theorem forall_not_quote_of_withoutSeparators {s code : Text} (h : s.withoutSeparators = code)
    (halnum : ∀ x ∈ code, Text.isAsciiAlnum x = true) : ∀ x ∈ s, Noise.isQuote x = false := by
  intro x hx
  by_cases hsep : Text.isSeparator x = true
  · simp only [Text.isSeparator, Bool.or_eq_true, decide_eq_true_eq] at hsep
    rcases hsep with rfl | rfl <;> decide
  · have hmem : x ∈ code := h ▸ List.mem_filter.mpr ⟨hx, by simpa using hsep⟩
    have hgap := isGap_of_alnum (halnum x hmem)
    rw [Text.isGap, Bool.or_eq_false_iff] at hgap
    exact hgap.2

/-- Spaces and dashes alone are what parts a code in its span exactly if no quotation mark does. -/
theorem withoutSeparators_span_iff {text : Text} {c : Candidate} (h : c ∈ candidatesOf text) :
    (c.spanIn text).withoutSeparators = c.code ↔
      ∀ x ∈ c.spanIn text, Noise.isQuote x = false := by
  constructor
  · intro hsep
    exact forall_not_quote_of_withoutSeparators hsep
      (isAsciiAlnum_of_mem_code (foundIn_of_mem_candidatesOf h))
  · intro hquote
    rw [← code_eq_span h]
    refine List.filter_congr fun x hx => ?_
    rw [Text.isGap, hquote x hx, Bool.or_false]

end Passcode
