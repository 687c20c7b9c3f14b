import Passcode.Proofs.Candidate.Spans
import Passcode.Proofs.Explanation
import Passcode.Proofs.Line.Index
import Passcode.Proofs.Message

/-!
# Contest — a chunk of a code against the whole of it

A code that is written in groups competes with its own groups of three or four digits, which are
candidates too (`Candidate.IsChunkOf`).

* `chunk_lengths`: a chunk has three or four digits, and the whole at least two more, eight at most.
* `trimmed_ne_code`: neither of them fills its line, for the span of the whole is longer than both
  codes.
* `score_eq`: all but five signals say the same of both.  The length favours the whole by its lead
  (`Candidate.lead`); the other four look at the place at which the candidate stands
  (`Breakdown.place`).

So a chunk wins against the whole only where its place makes up for the lead
(`chunk_wins_only_by_place`).  It may: behind a marker the first of two groups of four digits is
assigned, and the whole is not (`first_chunk_wins`).
-/

namespace Passcode

/-! ### A chunk and the whole -/

/-- The first candidate is a run of digits within the span of the second, a group of digits. -/
def Candidate.IsChunkOf (chunk whole : Candidate) : Prop :=
  chunk.source = .numeric ∧ whole.source = .grouped ∧
    whole.first ≤ chunk.first ∧ chunk.last ≤ whole.last

instance (chunk whole : Candidate) : Decidable (chunk.IsChunkOf whole) :=
  inferInstanceAs (Decidable (_ ∧ _ ∧ _ ∧ _))

/-- What the length of a whole is worth more than that of its chunk, in halves. -/
def Candidate.lead (whole chunk : Candidate) : Int :=
  if chunk.length = 3 then (if whole.length = 6 then 4 else 2)
  else (if whole.length = 6 then 2 else 0)

/-- The sum of the signals that look at the place of a candidate, in halves. -/
def Breakdown.place (b : Breakdown) : Int :=
  b.assignment.halves + b.keywordProximity.halves + b.money.halves + b.phoneShape.halves

theorem isBlank_of_digit {c : Char} (h : Text.isAsciiDigit c = true) : Text.isBlank c = false := by
  simp only [Text.isAsciiDigit, Bool.and_eq_true, decide_eq_true_eq] at h
  have hlow : 48 ≤ c.toNat := h.1
  have hhigh : c.toNat ≤ 57 := h.2
  simp only [Text.isBlank, Text.blankRanges, Ranges.covers]
  grind

section Pair

variable {text : Text} {chunk whole : Candidate}

/-- The chain of a whole, with the run of a chunk among its chunks. -/
theorem exists_chain (hchunk : chunk ∈ candidatesOf text) (hwhole : whole ∈ candidatesOf text)
    (h : chunk.IsChunkOf whole) :
    ∃ chain, Linked (maskNoise text) chain ∧ 2 ≤ chain.length ∧
      (chainCode chain).length ≤ 8 ∧ whole = .ofChain chain ∧
        ∃ r ∈ chain, 3 ≤ r.body.length ∧ chunk = .ofRun .numeric true r := by
  obtain ⟨hnumeric, hgrouped, hfirst, hlast⟩ := h
  cases foundIn_of_mem_candidatesOf hwhole with
  | numeric hr => cases hgrouped
  | alnum hr => cases hgrouped
  | @grouped chain hchain hmany _ hhigh =>
    cases foundIn_of_mem_candidatesOf hchunk with
    | grouped hchain => cases hnumeric
    | alnum hr => cases hnumeric
    | @numeric r hr hlow _ =>
      have hrun := Run.start_lt_stop_of_mem hr
      rw [ofChain_first] at hfirst
      rw [ofChain_last] at hlast
      simp only [Candidate.ofRun] at hfirst hlast
      exact ⟨chain, hchain, hmany, hhigh, rfl, r,
        hchain.mem_of_start hr (by omega) (by omega), hlow, rfl⟩

/-- A chunk has three or four digits, and the whole at least two more, eight at most. -/
theorem chunk_lengths (hchunk : chunk ∈ candidatesOf text) (hwhole : whole ∈ candidatesOf text)
    (h : chunk.IsChunkOf whole) :
    3 ≤ chunk.length ∧ chunk.length ≤ 4 ∧ chunk.length + 2 ≤ whole.length ∧
      whole.length ≤ 8 := by
  obtain ⟨chain, hchain, hmany, hhigh, rfl, r, hr, hlow, rfl⟩ := exists_chain hchunk hwhole h
  have hfour := (mem_runs_of_mem_chunks (hchain.mem_chunks r hr)).2.2
  have hsum := hchain.length_of_mem hr
  exact ⟨hlow, hfour, by simp only [Candidate.length, Candidate.ofRun, Candidate.ofChain]; omega,
    hhigh⟩

theorem isNumeric_of_isChunkOf (hchunk : chunk ∈ candidatesOf text)
    (hwhole : whole ∈ candidatesOf text) (h : chunk.IsChunkOf whole) :
    chunk.numeric = true ∧ whole.numeric = true := by
  obtain ⟨chain, -, -, -, rfl, r, -, -, rfl⟩ := exists_chain hchunk hwhole h
  exact ⟨rfl, rfl⟩

/-- The span of a whole is a stretch of the trimmed text that is longer than the code. -/
theorem exists_longer_stretch (hwhole : whole ∈ candidatesOf text) (h : whole.source = .grouped) :
    ∃ s, s <:+: Text.trim text ∧ whole.length < s.length := by
  cases foundIn_of_mem_candidatesOf hwhole with
  | numeric hr => cases h
  | alnum hr => cases h
  | @grouped chain hchain hmany _ _ =>
    have hlt := hchain.start_lt_stop
    have hstop : chainStop chain ≤ text.length := length_maskNoise text ▸ hchain.stop_le_length
    have hlength := Text.length_slice (chainStart chain) hstop
    -- Both ends of the span are digits, in the masked text and so in the text.
    have ends : ∀ i : Nat, i < chainStop chain - chainStart chain →
        (∃ c, (maskNoise text)[chainStart chain + i]? = some c ∧ Text.isAsciiDigit c = true) →
        ∀ c ∈ (Text.slice text (chainStart chain) (chainStop chain))[i]?,
          Text.isBlank c = false := by
      intro i hi h c hc
      obtain ⟨-, d, hd, hdigit⟩ := digit_of_maskNoise h
      rw [Text.slice_getElem? text (by omega), hd] at hc
      cases hc
      exact isBlank_of_digit hdigit
    refine ⟨_, Text.infix_trim (Text.slice_infix text (chainStart chain) (chainStop chain)) ?_ ?_,
      ?_⟩
    · rw [List.head?_eq_getElem?]
      exact ends 0 (by omega) hchain.digit_at_start
    · rw [List.getLast?_eq_getElem?, hlength]
      refine ends _ (by omega) ?_
      have hindex : chainStart chain + (chainStop chain - chainStart chain - 1) =
        chainStop chain - 1 := by omega
      rw [hindex]
      exact hchain.digit_at_last
    · have hlinks := hchain.stop_eq
      rw [hlength]
      simp only [Candidate.length, Candidate.ofChain]
      omega

/-- Neither a chunk nor the whole fills its line. -/
theorem trimmed_ne_code (hchunk : chunk ∈ candidatesOf text) (hwhole : whole ∈ candidatesOf text)
    (h : chunk.IsChunkOf whole) :
    Text.trim text ≠ chunk.code ∧ Text.trim text ≠ whole.code := by
  obtain ⟨s, hs, hlonger⟩ := exists_longer_stretch hwhole h.2.1
  obtain ⟨-, -, hless, -⟩ := chunk_lengths hchunk hwhole h
  have hle := hs.length_le
  simp only [Candidate.length] at hlonger hless
  refine ⟨fun heq => ?_, fun heq => ?_⟩ <;> rw [heq] at hle <;> omega

end Pair

/-! ### Their scores -/

theorem lead_eq {chunk whole : Candidate} (hlow : 3 ≤ chunk.length) (hhigh : chunk.length ≤ 4)
    (hless : chunk.length + 2 ≤ whole.length) (hmost : whole.length ≤ 8) :
    (Signal.ofLength whole.length).halves =
      (Signal.ofLength chunk.length).halves + whole.lead chunk := by
  unfold Candidate.lead
  generalize chunk.length = m at *
  generalize whole.length = n at *
  have hm : m = 3 ∨ m = 4 := by omega
  have hn : n = 5 ∨ n = 6 ∨ n = 7 ∨ n = 8 := by omega
  rcases hm with rfl | rfl <;> rcases hn with rfl | rfl | rfl | rfl <;> rfl

/-- The score of a candidate of digits that does not fill its line. -/
theorem score_eq {s : Surroundings} {facts : LineFacts} {c : Candidate}
    (hnumeric : c.numeric = true) (hshort : c.length ≤ 8) (hline : facts.trimmed ≠ c.code) :
    (ScoredCandidate.onLine s facts c).score.halves =
      (Signal.ofLength c.length).halves + 1 + (Signal.given facts.hasCodeWord ⟨4⟩).halves +
        (Signal.given s.hasSafetyKeyword ⟨2⟩).halves +
          (Breakdown.ofCandidate s facts c).place := by
  have hlong : Signal.isLongNumber c = false := by
    rw [Signal.isLongNumber, hnumeric, Bool.true_and, decide_eq_false_iff_not]
    omega
  have hexact : (facts.trimmed == c.code) = false := beq_false_of_ne hline
  have htotal : (ScoredCandidate.onLine s facts c).score.halves = _ :=
    Breakdown.total_halves (.ofCandidate s facts c)
  rw [htotal]
  simp only [Breakdown.place, Breakdown.ofCandidate, hnumeric, hlong, hexact, Signal.given,
    Score.zero, if_true, Bool.false_eq_true, if_false]
  omega

namespace Detector

/-- What the signals look at in a raw message. -/
def surroundingsOf (d : Detector) (raw : Text) : Surroundings :=
  { text := (d.messageOf raw).text
    lower := (d.messageOf raw).lower
    centres := (keywordCentres (d.messageOf raw).lower d.otp.items).map Int.ofNat
    moneyIndicators := d.money.items
    hasSafetyKeyword := (d.flagsOf (d.messageOf raw)).safety
    moneyRadius := d.settings.moneyRadius
    phoneWindow := d.settings.phoneWindow }

/-- A message is one line, so all its candidates are scored by the same facts. -/
theorem scoresOf_onLine (d : Detector) (raw : Text) :
    d.scoresOf raw = (candidatesOf (d.messageOf raw).text).map
      (ScoredCandidate.onLine (d.surroundingsOf raw)
        (.of (.cut (d.messageOf raw).text 0 (d.messageOf raw).text.length))) := by
  have hfeed : '\n' ∉ (d.messageOf raw).text := Message.feed_not_mem_text _ raw
  have hall : d.scoresOf raw = ScoredCandidate.ofAll (d.surroundingsOf raw)
    (.of (d.messageOf raw).text) (candidatesOf (d.messageOf raw).text) := rfl
  rw [hall, ScoredCandidate.ofAll_eq_map _ (LineIndex.faithful_of _)]
  simp only [LineIndex.factsAt_of_no_feed hfeed]

/-- The score of a chunk is below that of the whole exactly if its place is not worth the lead. -/
theorem score_lt_iff {d : Detector} {raw : Text} {chunk whole : ScoredCandidate}
    (hchunk : chunk ∈ d.scoresOf raw) (hwhole : whole ∈ d.scoresOf raw)
    (h : chunk.candidate.IsChunkOf whole.candidate) :
    chunk.score.halves < whole.score.halves ↔
      chunk.breakdown.place <
        whole.candidate.lead chunk.candidate + whole.breakdown.place := by
  rw [scoresOf_onLine] at hchunk hwhole
  obtain ⟨c, hc, rfl⟩ := List.mem_map.mp hchunk
  obtain ⟨g, hg, rfl⟩ := List.mem_map.mp hwhole
  obtain ⟨hlow, hhigh, hless, hmost⟩ := chunk_lengths hc hg h
  obtain ⟨hcode, hcode'⟩ := trimmed_ne_code hc hg h
  obtain ⟨hnum, hnum'⟩ := isNumeric_of_isChunkOf hc hg h
  have hlead := lead_eq hlow hhigh hless hmost
  have htrimmed : (LineFacts.of (.cut (d.messageOf raw).text 0
      (d.messageOf raw).text.length)).trimmed = Text.trim (d.messageOf raw).text := by
    rw [LineFacts.of, Line.text_cut_all]
  -- The code word and the safety keyword add the same to both.
  rw [score_eq hnum (by omega) (by rw [htrimmed]; exact hcode),
    score_eq hnum' hmost (by rw [htrimmed]; exact hcode')]
  simp only [ScoredCandidate.onLine]
  omega

/-- **A chunk wins only by its place**: a code that is reported is the code of the winner, and a
chunk scores less than the whole exactly if what the four signals of the place give it is less than
what they give the whole with its lead.  So a chunk that wins stands at a place that makes up for
the lead, which is two points for three digits of six, nothing for four digits of seven or eight,
and one point for other chunks. -/
theorem chunk_wins_only_by_place (d : Detector) (hd : d.settings.WithinBounds) (raw : Text) :
    ∃ l, d.explain raw = .ok l ∧
      (∀ code, l.value.verdict.code = some code →
        ∃ w, winner? l.value.candidates = some w ∧ w.candidate.code = code) ∧
      ∀ whole ∈ l.value.candidates, ∀ chunk ∈ l.value.candidates,
        chunk.candidate.IsChunkOf whole.candidate →
          (chunk.candidate.length = 3 ∨ chunk.candidate.length = 4) ∧
          chunk.candidate.length + 2 ≤ whole.candidate.length ∧ whole.candidate.length ≤ 8 ∧
          (chunk.score.halves < whole.score.halves ↔
            chunk.breakdown.place <
              whole.candidate.lead chunk.candidate + whole.breakdown.place) ∧
          (winner? l.value.candidates = some chunk →
            whole.candidate.lead chunk.candidate + whole.breakdown.place ≤
              chunk.breakdown.place) := by
  obtain ⟨l, hexplain, -, hcandidates, hcode⟩ := exists_explanation hd raw
  rw [← hcandidates] at hcode
  refine ⟨l, hexplain, hcode, ?_⟩
  rw [hcandidates]
  intro whole hwhole chunk hchunk h
  have hlt := score_lt_iff hchunk hwhole h
  have hmem : ∀ {x : ScoredCandidate}, x ∈ d.scoresOf raw →
      x.candidate ∈ candidatesOf (d.messageOf raw).text :=
    fun hx => scoresOf_candidates d raw ▸ List.mem_map_of_mem hx
  obtain ⟨hlow, hhigh, hless, hmost⟩ := chunk_lengths (hmem hchunk) (hmem hwhole) h
  refine ⟨by omega, hless, hmost, hlt, fun hw => ?_⟩
  have hmax := (winner?_max hw).2 whole hwhole
  omega

/-! ### A chunk that wins -/

/-- A message with a code of eight digits in two groups, behind a marker. -/
def twoGroups : Text := "OTP is 1234 5678".toList

/-- The first group is assigned and the whole is not, and so it scores most. -/
theorem scoresOf_twoGroups :
    ∃ whole ∈ plain.scoresOf twoGroups, ∃ chunk ∈ plain.scoresOf twoGroups,
      chunk.candidate.IsChunkOf whole.candidate ∧
        whole.candidate.code = "12345678".toList ∧
          winner? (plain.scoresOf twoGroups) = some chunk := by decide +kernel

theorem code_twoGroups :
    (plain.explain twoGroups).toOption.bind (fun l => l.value.verdict.code) =
      some "1234".toList := by decide +kernel

/-- A single chunk of a code that is written in groups may be reported. -/
theorem first_chunk_wins :
    plain.settings.WithinBounds ∧
      ∃ l, plain.explain twoGroups = .ok l ∧ l.value.verdict.code = some "1234".toList ∧
        ∃ whole ∈ l.value.candidates, ∃ chunk ∈ l.value.candidates,
          chunk.candidate.IsChunkOf whole.candidate ∧
            whole.candidate.code = "12345678".toList ∧
              winner? l.value.candidates = some chunk := by
  obtain ⟨l, hexplain, -, hcandidates, -⟩ := exists_explanation plain_withinBounds twoGroups
  have hcode := code_twoGroups
  rw [hexplain] at hcode
  exact ⟨plain_withinBounds, l, hexplain, hcode, hcandidates ▸ scoresOf_twoGroups⟩

theorem twoGroups_by_place :
    plain.settings.WithinBounds ∧
      ∃ l, plain.explain twoGroups = .ok l ∧
        ∃ whole ∈ l.value.candidates, ∃ chunk ∈ l.value.candidates,
          chunk.candidate.IsChunkOf whole.candidate ∧
            winner? l.value.candidates = some chunk ∧
              whole.candidate.lead chunk.candidate + whole.breakdown.place ≤
                chunk.breakdown.place := by
  obtain ⟨l, hexplain, -, hcontest⟩ :=
    chunk_wins_only_by_place plain plain_withinBounds twoGroups
  obtain ⟨l', hexplain', -, hcandidates, -⟩ := exists_explanation plain_withinBounds twoGroups
  rw [hexplain] at hexplain'
  cases hexplain'
  obtain ⟨whole, hwhole, chunk, hchunk, h, -, hw⟩ := hcandidates ▸ scoresOf_twoGroups
  exact ⟨plain_withinBounds, l, hexplain, whole, hwhole, chunk, hchunk, h, hw,
    (hcontest whole hwhole chunk hchunk h).2.2.2.2 hw⟩

end Detector

end Passcode
