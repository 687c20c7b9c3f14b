import Passcode.Proofs.Candidate.Laminar
import Passcode.Proofs.Links
import Passcode.Proofs.Noise.Quiet
import Passcode.Proofs.Pattern.Runs

/-!
# Single — the candidates that are single runs

Two passes offer whole runs of the masked text: runs of three to ten digits, and runs of word
characters that are tokens.  Both are found by a pattern that could match a part of a run as well,
and neither does.  A pass of this kind offers each chosen run (`mem_of_chosen`), and no part of any
other (`not_meets_of_not_chosen`).

* `numeric_exactly`: the numeric candidates are the runs of three to ten digits, whatever stands
  beside them.
* `alnum_exactly`: the mixed candidates are the runs of word characters that are four to ten plain
  letters and digits with at least two digits and a letter.
-/

namespace Passcode

open Text

variable {text : Text} {r : Run}

/-! ### Passes that offer whole runs -/

section Pass

variable {p : Char → Bool} {chosen : Run → Bool} {source : Source} {numeric : Bool}

theorem mem_of_chosen
    (hpass : (candidatesOf text).filter (fun c => c.source = source) =
      ((runs p (maskNoise text)).filter chosen).map (Candidate.ofRun source numeric))
    (hr : r ∈ runs p (maskNoise text)) (hchosen : chosen r = true) :
    Candidate.ofRun source numeric r ∈ candidatesOf text := by
  have hmem : Candidate.ofRun source numeric r ∈
      (candidatesOf text).filter (fun c => c.source = source) := by
    rw [hpass]
    exact List.mem_map_of_mem (List.mem_filter.mpr ⟨hr, hchosen⟩)
  exact (List.mem_filter.mp hmem).1

/-- The candidates of a pass over runs have no part in a run that is not chosen. -/
theorem not_meets_of_not_chosen
    (hpass : (candidatesOf text).filter (fun c => c.source = source) =
      ((runs p (maskNoise text)).filter chosen).map (Candidate.ofRun source numeric))
    (hr : r ∈ runs p (maskNoise text)) (hnot : chosen r = false) :
    ∀ c ∈ candidatesOf text, c.source = source → ¬ c.Meets r.start r.stop := by
  intro c hc hsource
  have hmem : c ∈ (candidatesOf text).filter (fun c => c.source = source) :=
    List.mem_filter.mpr ⟨hc, decide_eq_true hsource⟩
  rw [hpass] at hmem
  obtain ⟨s, hs, rfl⟩ := List.mem_map.mp hmem
  obtain ⟨hs, hchosen⟩ := List.mem_filter.mp hs
  rw [Candidate.Meets, Candidate.ofRun_first, Candidate.ofRun_last]
  rcases runs_apart hr hs with rfl | hlt | hlt
  · rw [hchosen] at hnot
    cases hnot
  · omega
  · omega

end Pass

/-! ### Runs of digits -/

/-- **The numeric candidates of a message are exactly its runs of three to ten digits.**  They stand
from left to right, and each has its run as its code and as its span.  They are the matches of the
pattern of digits.  A longer or a shorter run has no part in any of them, and a run is bounded by
whatever is not a plain digit. -/
theorem numeric_exactly (text : Text) :
    ∃ found : List Run,
      Pattern.findClear isAsciiDigit (maskNoise text) digitPattern =
        found.map (fun r => (r.start, r.stop)) ∧
      (candidatesOf text).filter (fun c => c.source = .numeric) =
        found.map (fun r =>
          { code := r.body
            first := r.start
            last := (r.stop : Int) - 1
            numeric := true
            source := .numeric }) ∧
      found.Pairwise (fun a b => a.stop < b.start) ∧
      (∀ r : Run, r ∈ found ↔ r.MaximalIn isAsciiDigit (maskNoise text) ∧
        3 ≤ r.body.length ∧ r.body.length ≤ 10) ∧
      (∀ r : Run, r.MaximalIn isAsciiDigit (maskNoise text) →
        r.body.length < 3 ∨ 10 < r.body.length →
          ∀ c ∈ candidatesOf text, c.source = .numeric → ¬ c.Meets r.start r.stop) ∧
      ∀ before digits behind : Text, maskNoise text = before ++ digits ++ behind →
        (∀ x ∈ digits, isAsciiDigit x = true) → 3 ≤ digits.length → digits.length ≤ 10 →
          (∀ x ∈ before.getLast?, isAsciiDigit x = false) →
            (∀ x ∈ behind.head?, isAsciiDigit x = false) →
              { code := digits
                first := before.length
                last := ((before.length + digits.length : Nat) : Int) - 1
                numeric := true
                source := .numeric } ∈ candidatesOf text := by
  have hpass : (candidatesOf text).filter (fun c => c.source = .numeric) =
      numericPass (maskNoise text) := filter_source text .numeric
  refine ⟨_, Pattern.findClear_digitPattern (maskNoise text), hpass, (runs_pairwise _ _).filter _,
    fun r => ?_, fun r hr hlength => ?_,
    fun before digits behind htext hdigits hlow hhigh hleft hright => ?_⟩
  · rw [List.mem_filter, mem_runs_iff, Bool.and_eq_true, decide_eq_true_eq, decide_eq_true_eq]
  · refine not_meets_of_not_chosen hpass (mem_runs_iff.mpr hr) (Bool.eq_false_iff.mpr ?_)
    rw [Ne, Bool.and_eq_true, decide_eq_true_eq, decide_eq_true_eq]
    omega
  · have hne : digits ≠ [] := List.ne_nil_of_length_pos (by omega)
    refine mem_of_chosen (r := ⟨before.getLast?, before.length, digits, behind.head?⟩) hpass
      (mem_runs_iff.mpr ⟨before, behind, {
        text_eq := htext
        start_eq := (Nat.zero_add _).symm
        before_eq := Option.or_none.symm
        after_eq := rfl
        body_ne_nil := hne
        body_all := hdigits
        left := hleft
        right := hright }⟩) ?_
    rw [Bool.and_eq_true, decide_eq_true_eq, decide_eq_true_eq]
    exact ⟨hlow, hhigh⟩

/-- A run of eleven digits has no candidate, and one between letters has. -/
example : (candidatesOf "12345678901 a1234567890b 12".toList).map
    (fun c => (c.code, c.first, c.last)) = [("1234567890".toList, 13, 22)] := by
  decide +kernel

/-! ### Tokens -/

/-- Of plain letters and digits not all are digits if and only if there is a letter. -/
theorem countP_digit_lt_iff {body : Text} (hplain : ∀ x ∈ body, isAsciiAlnum x = true) :
    body.countP isAsciiDigit < body.length ↔ ∃ x ∈ body, isAsciiLetter x = true := by
  rw [Nat.lt_iff_le_and_ne, and_iff_right List.countP_le_length, Ne, List.countP_eq_length]
  constructor
  · intro hnot
    obtain ⟨x, hx, hdigit⟩ : ∃ x ∈ body, ¬ isAsciiDigit x = true :=
      Classical.byContradiction fun hno => hnot fun x hx => Classical.byContradiction fun hdigit =>
        hno ⟨x, hx, hdigit⟩
    exact ⟨x, hx, (Bool.or_eq_true_iff.mp (hplain x hx)).resolve_left hdigit⟩
  · rintro ⟨x, hx, hletter⟩ hall
    exact Bool.eq_false_iff.mp (not_isAsciiLetter_of_digit (hall x hx)) hletter

/-- **The mixed candidates of a message are exactly its tokens of digits and letters**: runs of word
characters that are four to ten plain letters and digits, with two digits or more and a letter or
more.  They stand from left to right, and each has its run as its code and as its span.  The tokens
are the matches of the pattern of tokens, and no other run of word characters has a part in a
candidate, be it longer, or with one underscore or one letter that is not plain. -/
theorem alnum_exactly (text : Text) :
    ∃ tokens found : List Run,
      Pattern.findAll (maskNoise text) tokenPattern = tokens.map (fun r => (r.start, r.stop)) ∧
      (∀ r : Run, r ∈ tokens ↔ r.MaximalIn isWord (maskNoise text) ∧
        (∀ x ∈ r.body, isAsciiDigit x = true ∨ isAsciiLetter x = true) ∧
        4 ≤ r.body.length ∧ r.body.length ≤ 10) ∧
      tokens.Pairwise (fun a b => a.stop < b.start) ∧
      (candidatesOf text).filter (fun c => c.source = .alnum) =
        found.map (fun r =>
          { code := r.body
            first := r.start
            last := (r.stop : Int) - 1
            numeric := false
            source := .alnum }) ∧
      found.Sublist tokens ∧
      (∀ r : Run, r ∈ found ↔ r ∈ tokens ∧ 2 ≤ r.body.countP isAsciiDigit ∧
        ∃ x ∈ r.body, isAsciiLetter x = true) ∧
      ∀ r : Run, r.MaximalIn isWord (maskNoise text) → r ∉ found →
        ∀ c ∈ candidatesOf text, c.source = .alnum → ¬ c.Meets r.start r.stop := by
  have hpass : (candidatesOf text).filter (fun c => c.source = .alnum) =
      alnumPass (maskNoise text) := filter_source text .alnum
  have htokens : ∀ r : Run, r ∈ (runs isWord (maskNoise text)).filter (fun r =>
      r.body.all isAsciiAlnum && 4 ≤ r.body.length && r.body.length ≤ 10) ↔
        r.MaximalIn isWord (maskNoise text) ∧ (∀ x ∈ r.body, isAsciiAlnum x = true) ∧
          4 ≤ r.body.length ∧ r.body.length ≤ 10 := by
    intro r
    rw [List.mem_filter, mem_runs_iff]
    simp only [Bool.and_eq_true, decide_eq_true_eq, List.all_eq_true, and_assoc]
  have hfound : (runs isWord (maskNoise text)).filter (fun r => isToken r.body) =
      ((runs isWord (maskNoise text)).filter (fun r =>
        r.body.all isAsciiAlnum && 4 ≤ r.body.length && r.body.length ≤ 10)).filter (fun r =>
          2 ≤ r.body.countP isAsciiDigit && r.body.countP isAsciiDigit < r.body.length) := by
    rw [List.filter_filter]
    refine List.filter_congr fun r _ => ?_
    rw [isToken, Bool.and_assoc, Bool.and_comm]
  refine ⟨_, _, Pattern.findAll_tokenPattern (maskNoise text), fun r => ?_,
    (runs_pairwise _ _).filter _, hpass, ?_, fun r => ?_, fun r hr hnot => ?_⟩
  · rw [htokens]
    simp only [isAsciiAlnum, Bool.or_eq_true]
  · rw [hfound]
    exact List.filter_sublist
  · rw [hfound, List.mem_filter, Bool.and_eq_true, decide_eq_true_eq, decide_eq_true_eq]
    exact and_congr_right fun hr => and_congr_right fun _ =>
      countP_digit_lt_iff ((htokens r).mp hr).2.1
  · have hmem := mem_runs_iff.mpr hr
    refine not_meets_of_not_chosen hpass hmem (Bool.eq_false_iff.mpr fun hchosen => ?_)
    exact hnot (List.mem_filter.mpr ⟨hmem, hchosen⟩)

/-- A token between marks, one with an underscore behind it, and one that has no letter. -/
example : ((candidatesOf "(AB12) AB12_ 1234".toList).filter (fun c => c.source = .alnum)).map
    (fun c => (c.code, c.first, c.last)) = [("AB12".toList, 1, 4)] := by
  decide +kernel

end Passcode
