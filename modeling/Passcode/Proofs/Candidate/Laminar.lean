import Passcode.Proofs.Candidate.Maximal
import Passcode.Proofs.Candidate.Shapes
import Passcode.Proofs.Text.Maximal

/-!
# Laminar — how the spans of two candidates lie

Within a pass the spans stand from left to right (`pairwise_ofRun`, `chains_pairwise`).  Between two
passes there is one argument for each pair:

* `Linked.apart_or_within`: a run of digits is one of the chunks of a chain, or apart from it.
* `apart_or_within_token`: a run of digits lies within a token, or apart from it, and a token has
  more than digits.
* `Linked.apart_of_token`: each chunk of a chain is a run of word characters too, so a token is
  apart from each of them, and no token fits between two.

`spans_laminar` puts them together.
-/

namespace Passcode

open Text

/-! ### How two spans lie -/

/-- The place of a pass in the list of candidates. -/
def Source.pass : Source → Nat
  | .numeric => 0
  | .grouped => 1
  | .alnum => 2

namespace Candidate

/-- One span ends before the other one starts. -/
def Apart (a b : Candidate) : Prop := a.last < b.first ∨ b.last < a.first

/-- The span of `a` lies within that of `b`, which is longer. -/
def StrictlyWithin (a b : Candidate) : Prop :=
  b.first ≤ a.first ∧ a.last ≤ b.last ∧ (b.first < a.first ∨ a.last < b.last)

theorem ofRun_first (source : Source) (numeric : Bool) (r : Run) :
    (ofRun source numeric r).first = r.start := rfl

theorem ofRun_last (source : Source) (numeric : Bool) (r : Run) :
    (ofRun source numeric r).last = (r.stop : Int) - 1 := rfl

/-- Spans that are apart differ. -/
theorem Apart.ends_ne {a b : Candidate} (h : a.Apart b) (ha : a.first ≤ a.last)
    (hb : b.first ≤ b.last) : (a.first, a.last) ≠ (b.first, b.last) := by
  intro heq
  obtain ⟨hfirst, hlast⟩ := Prod.mk.inj heq
  rcases h with h | h
  · exact absurd (hfirst ▸ ha) (Int.not_le.mpr (hlast ▸ h))
  · exact absurd (hfirst ▸ hb) (Int.not_le.mpr (hlast ▸ h))

/-- A span strictly within another one differs from it. -/
theorem StrictlyWithin.ends_ne {a b : Candidate} (h : a.StrictlyWithin b) :
    (a.first, a.last) ≠ (b.first, b.last) := by
  intro heq
  obtain ⟨hfirst, hlast⟩ := Prod.mk.inj heq
  rcases h.2.2 with h | h
  · exact Int.ne_of_gt h hfirst
  · exact Int.ne_of_lt h hlast

end Candidate

/-! ### Within a pass -/

variable {scan : Text} {chain : List Run} {r s : Run}

/-- The candidates of chosen runs stand from left to right. -/
theorem pairwise_ofRun (p : Char → Bool) (chosen : Run → Bool) (source : Source) (numeric : Bool)
    (scan : Text) :
    (((runs p scan).filter chosen).map (Candidate.ofRun source numeric)).Pairwise
      (fun a b => a.last < b.first) := by
  refine List.pairwise_map.mpr (((runs_pairwise p scan).filter chosen).imp fun {a b} h => ?_)
  rw [Candidate.ofRun_last, Candidate.ofRun_first]
  omega

/-- The chains of chunks stand from left to right. -/
theorem chains_pairwise (scan : Text) :
    (chains (chunks scan)).Pairwise (fun a b => chainStop a < chainStart b) := by
  have hchunks : (chains (chunks scan)).flatten.Pairwise (fun a b => a.stop < b.start) := by
    rw [chains_eq_splitBy, List.flatten_splitBy]
    exact (runs_pairwise isAsciiDigit scan).filter _
  refine (List.pairwise_flatten.mp hchunks).2.imp_of_mem fun {a b} ha hb h => ?_
  rw [chains_eq_splitBy] at ha hb
  have hane := List.ne_nil_of_mem_splitBy ha
  have hbne := List.ne_nil_of_mem_splitBy hb
  rw [chainStop, chainStart, List.getLast?_eq_getLast_of_ne_nil hane,
    List.head?_eq_some_head hbne]
  exact h _ (List.getLast_mem hane) _ (List.head_mem hbne)

/-- Grouped candidates are chains in their order, some left out. -/
theorem chainCandidates_sublist (seen : List Text) (all : List (List Run)) :
    (chainCandidates seen all).Sublist (all.map Candidate.ofChain) := by
  induction all generalizing seen with
  | nil => exact List.Sublist.slnil
  | cons chain rest ih =>
    rw [chainCandidates, List.map_cons]
    split
    · exact (ih _).cons_cons _
    · exact (ih _).cons _

/-- Grouped candidates are apart and in order. -/
theorem pairwise_groupedPass (seen : List Text) (scan : Text) :
    (groupedPass seen scan).Pairwise (fun a b => a.last < b.first) := by
  refine List.Pairwise.sublist (chainCandidates_sublist _ _)
    (List.pairwise_map.mpr (((chains_pairwise scan).filter _).imp fun {a b} h => ?_))
  rw [ofChain_last, ofChain_first]
  omega

/-! ### Between two passes -/

namespace Linked

/-- The runs of a chain lie between its ends. -/
theorem start_le_stop_of_mem (h : Linked scan chain) (hr : r ∈ chain) :
    chainStart chain ≤ r.start ∧ r.stop ≤ chainStop chain := by
  induction h with
  | single => cases List.mem_singleton.mp hr; exact ⟨Nat.le_refl _, Nat.le_refl _⟩
  | cons ha hlink hrest ih =>
    rename_i a b bs
    have hnext := (Run.linkedTo_iff.mp hlink).2
    have hlt := Run.start_lt_stop_of_mem (mem_runs_of_mem_chunks ha).1
    have hstart : chainStart (a :: b :: bs) = a.start := rfl
    have hstart' : chainStart (b :: bs) = b.start := rfl
    have hspan := hrest.start_lt_stop
    rw [chainStop_cons_cons]
    rcases List.mem_cons.mp hr with rfl | hr
    · omega
    · have := ih hr; omega

/-- A run of digits is a chunk of a chain, and then shorter than a chain of two, or apart from
it. -/
theorem apart_or_within (h : Linked scan chain) (hmany : 2 ≤ chain.length)
    (hr : r ∈ runs isAsciiDigit scan) :
    r.stop < chainStart chain ∨ chainStop chain ≤ r.start ∨
      chainStart chain ≤ r.start ∧ r.stop ≤ chainStop chain ∧
        r.stop + chainStart chain < chainStop chain + r.start := by
  rcases Nat.lt_or_ge r.start (chainStart chain) with hlow | hlow
  · -- The first chunk of the chain starts behind the run.
    have hne : chain ≠ [] := List.ne_nil_of_length_pos (by omega)
    have hhead := (mem_runs_of_mem_chunks (h.mem_chunks _ (List.head_mem hne))).1
    have hstart : chainStart chain = (chain.head hne).start := by
      rw [chainStart, List.head?_eq_some_head hne]; rfl
    have hspan := Run.start_lt_stop_of_mem hhead
    rcases runs_apart hr hhead with heq | hlt | hlt
    · rw [← heq] at hstart; omega
    · omega
    · omega
  rcases Nat.lt_or_ge r.start (chainStop chain) with hhigh | hhigh
  · have hmem := h.mem_of_start hr hlow hhigh
    have hlength := h.length_of_mem hmem
    have hstop := h.stop_eq
    exact .inr (.inr ⟨hlow, (h.start_le_stop_of_mem hmem).2, by rw [Run.stop]; omega⟩)
  · exact .inr (.inl hhigh)

end Linked

/-- A token is more than a run of digits. -/
theorem not_digits_of_isToken {body : Text} (h : isToken body = true) :
    ¬ ∀ c ∈ body, isAsciiDigit c = true := by
  intro hdigits
  simp only [isToken, Bool.and_eq_true, decide_eq_true_eq] at h
  exact Nat.ne_of_lt h.2 (List.countP_eq_length.mpr hdigits)

/-- A run of digits lies within a token, which is longer, or apart from it. -/
theorem apart_or_within_token (hr : r ∈ runs isAsciiDigit scan) (hs : s ∈ runs isWord scan)
    (htoken : isToken s.body = true) :
    r.stop < s.start ∨ s.stop < r.start ∨
      s.start ≤ r.start ∧ r.stop ≤ s.stop ∧ (s.start < r.start ∨ r.stop < s.stop) := by
  rcases Run.apart_or_within (fun _ => isWord_of_digit) hr hs with hlt | hlt | ⟨hstart, hstop⟩
  · exact .inl hlt
  · exact .inr (.inl hlt)
  · refine .inr (.inr ⟨hstart, hstop, ?_⟩)
    by_contra hsame
    -- With both ends the same the token would be the run of digits.
    have hbody : s.body = r.body := by
      rw [← Run.slice_of_mem hr, ← Run.slice_of_mem hs]
      congr 2 <;> omega
    exact not_digits_of_isToken htoken (hbody ▸ Run.forall_of_mem hr)

/-- A chunk is a run of word characters. -/
theorem mem_runs_isWord_of_mem_chunks (h : r ∈ chunks scan) : r ∈ runs isWord scan := by
  obtain ⟨hmem, hcond⟩ := List.mem_filter.mp h
  simp only [Run.isolatedFrom, Bool.and_eq_true, Option.all_eq_true, Bool.not_eq_true'] at hcond
  exact mem_runs_iff.mpr
    ((mem_runs_iff.mp hmem).widen (fun _ => isWord_of_digit) hcond.2.1 hcond.2.2)

/-- A token is apart from a chain. -/
theorem Linked.apart_of_token (h : Linked scan chain) (hs : s ∈ runs isWord scan)
    (htoken : isToken s.body = true) : s.stop < chainStart chain ∨ chainStop chain < s.start := by
  have hspan := Run.start_lt_stop_of_mem hs
  have chunk : ∀ {r : Run}, r ∈ chunks scan → s.stop < r.start ∨ r.stop < s.start := by
    intro r hr
    rcases runs_apart hs (mem_runs_isWord_of_mem_chunks hr) with rfl | hlt | hlt
    · exact absurd (Run.forall_of_mem (mem_runs_of_mem_chunks hr).1) (not_digits_of_isToken htoken)
    · exact .inl hlt
    · exact .inr hlt
  induction h with
  | single hr => exact chunk hr
  | cons hr hlink _ ih =>
    rename_i a b bs _
    have hnext := (Run.linkedTo_iff.mp hlink).2
    have hstart : chainStart (a :: b :: bs) = a.start := rfl
    have hstart' : chainStart (b :: bs) = b.start := rfl
    have hfirst := chunk hr
    rw [chainStop_cons_cons]
    omega

/-! ### All candidates -/

/-- The spans of a candidate of an earlier pass and one of a later pass. -/
theorem apart_or_strictlyWithin {a b : Candidate} (ha : a.FoundIn scan) (hb : b.FoundIn scan)
    (hpass : a.source.pass < b.source.pass) :
    a.Apart b ∨ a.StrictlyWithin b ∧ a.source = .numeric ∧ b.source ≠ .numeric := by
  cases ha with
  | numeric hr =>
    cases hb with
    | numeric => exact absurd hpass (Nat.lt_irrefl _)
    | grouped hchain hmany =>
      simp only [Candidate.Apart, Candidate.StrictlyWithin, Candidate.ofRun_first,
        Candidate.ofRun_last, ofChain_first, ofChain_last]
      rcases hchain.apart_or_within hmany hr with h | h | h
      · exact .inl (by omega)
      · exact .inl (by omega)
      · exact .inr ⟨by omega, rfl, nofun⟩
    | alnum hs htoken =>
      simp only [Candidate.Apart, Candidate.StrictlyWithin, Candidate.ofRun_first,
        Candidate.ofRun_last]
      rcases apart_or_within_token hr hs htoken with h | h | h
      · exact .inl (by omega)
      · exact .inl (by omega)
      · exact .inr ⟨by omega, rfl, nofun⟩
  | grouped hchain =>
    cases hb with
    | numeric => exact absurd hpass (Nat.not_lt_zero _)
    | grouped => exact absurd hpass (Nat.lt_irrefl _)
    | alnum hs htoken =>
      have := hchain.apart_of_token hs htoken
      rw [Candidate.Apart, ofChain_first, ofChain_last, Candidate.ofRun_first,
        Candidate.ofRun_last]
      exact .inl (by omega)
  | alnum =>
    cases hb with
    | numeric => exact absurd hpass (Nat.not_lt_zero _)
    | grouped => exact absurd hpass (Nat.not_lt_of_le (Nat.le_succ 1))
    | alnum => exact absurd hpass (Nat.lt_irrefl _)

theorem source_of_mem_ofRun {rs : List Run} {source : Source} {numeric : Bool} {c : Candidate}
    (h : c ∈ rs.map (Candidate.ofRun source numeric)) : c.source = source := by
  obtain ⟨r, -, rfl⟩ := List.mem_map.mp h
  rfl

theorem source_of_mem_groupedPass {seen : List Text} {c : Candidate}
    (h : c ∈ groupedPass seen scan) : c.source = .grouped := by
  obtain ⟨chain, -, -, -, rfl⟩ := exists_of_mem_chainCandidates h
  rfl

/-- The candidates of one source are those of its pass. -/
theorem filter_source (text : Text) (source : Source) :
    (candidatesOf text).filter (fun c => c.source = source) =
      match source with
      | .numeric => numericPass (maskNoise text)
      | .grouped => groupedPass ((numericPass (maskNoise text)).map Candidate.code) (maskNoise text)
      | .alnum => alnumPass (maskNoise text) := by
  -- A pass is kept as a whole or not at all.
  have whole : ∀ {s : Source} {pass : List Candidate}, (∀ c ∈ pass, c.source = s) →
      pass.filter (fun c => c.source = source) = if s = source then pass else [] := by
    intro s pass hsource
    split
    · rename_i heq
      exact List.filter_eq_self.mpr fun c hc => decide_eq_true ((hsource c hc).trans heq)
    · rename_i hne
      exact List.filter_eq_nil_iff.mpr fun c hc => by
        rw [hsource c hc, decide_eq_true_eq]; exact hne
  rw [candidatesOf, List.filter_append, List.filter_append, numericPass,
    whole fun _ => source_of_mem_ofRun, whole fun _ => source_of_mem_groupedPass, alnumPass,
    whole fun _ => source_of_mem_ofRun]
  cases source <;> simp

/-- The candidates stand by their passes, and within a pass from left to right. -/
theorem candidatesOf_ordered (text : Text) :
    (candidatesOf text).Pairwise (fun a b =>
      a.source.pass < b.source.pass ∨ a.source = b.source ∧ a.last < b.first) := by
  -- Within one pass all sources are the same.
  have same : ∀ {source : Source} {pass : List Candidate}, (∀ c ∈ pass, c.source = source) →
      pass.Pairwise (fun a b => a.last < b.first) → pass.Pairwise (fun a b =>
        a.source.pass < b.source.pass ∨ a.source = b.source ∧ a.last < b.first) := by
    intro source pass hsource hpair
    refine hpair.imp_of_mem fun {a b} ha hb h => .inr ⟨?_, h⟩
    rw [hsource a ha, hsource b hb]
  refine List.pairwise_append.mpr ⟨List.pairwise_append.mpr ⟨?_, ?_, ?_⟩, ?_, ?_⟩
  · exact same (fun _ => source_of_mem_ofRun) (pairwise_ofRun _ _ _ _ _)
  · exact same (fun _ => source_of_mem_groupedPass) (pairwise_groupedPass _ _)
  · intro a ha b hb
    rw [source_of_mem_ofRun ha, source_of_mem_groupedPass hb]
    exact .inl Nat.zero_lt_one
  · exact same (fun _ => source_of_mem_ofRun) (pairwise_ofRun _ _ _ _ _)
  · intro a ha b hb
    rw [source_of_mem_ofRun hb]
    rcases List.mem_append.mp ha with ha | ha
    · rw [source_of_mem_ofRun ha]; exact .inl Nat.zero_lt_two
    · rw [source_of_mem_groupedPass ha]; exact .inl Nat.one_lt_two

/-- **The spans of the candidates of a message are laminar.**  No two candidates have the same span.
Of two candidates the pass of the first is not the later one, and within a pass the first ends
before the second starts.  Their spans are apart, unless a run of digits lies strictly within a
group or a token. -/
theorem spans_laminar (text : Text) :
    (∀ c ∈ candidatesOf text, c.first ≤ c.last) ∧
    ((candidatesOf text).map (fun c => (c.first, c.last))).Nodup ∧
    (candidatesOf text).Pairwise (fun a b =>
      a.source.pass ≤ b.source.pass ∧ (a.source = b.source → a.last < b.first) ∧
        (a.Apart b ∨ a.StrictlyWithin b ∧ a.source = .numeric ∧ b.source ≠ .numeric)) := by
  have hspan : ∀ c ∈ candidatesOf text, c.first ≤ c.last :=
    fun c hc => (foundIn_of_mem_candidatesOf hc).first_le_last.2
  have hpair : (candidatesOf text).Pairwise (fun a b =>
      a.source.pass ≤ b.source.pass ∧ (a.source = b.source → a.last < b.first) ∧
        (a.Apart b ∨ a.StrictlyWithin b ∧ a.source = .numeric ∧ b.source ≠ .numeric)) := by
    refine (candidatesOf_ordered text).imp_of_mem fun {a b} ha hb hordered => ?_
    rcases hordered with hpass | ⟨hsource, hlt⟩
    · refine ⟨Nat.le_of_lt hpass, fun hsource => ?_, apart_or_strictlyWithin
        (foundIn_of_mem_candidatesOf ha) (foundIn_of_mem_candidatesOf hb) hpass⟩
      rw [hsource] at hpass
      exact absurd hpass (Nat.lt_irrefl _)
    · exact ⟨Nat.le_of_eq (congrArg Source.pass hsource), fun _ => hlt, .inl (.inl hlt)⟩
  refine ⟨hspan, List.pairwise_map.mpr (hpair.imp_of_mem fun {a b} ha hb h => ?_), hpair⟩
  rcases h.2.2 with hapart | ⟨hwithin, -⟩
  · exact hapart.ends_ne (hspan a ha) (hspan b hb)
  · exact hwithin.ends_ne

/-- Two runs within a group, and one within a token. -/
example : (candidatesOf "123 456 AB1234".toList).map (fun c => (c.source, c.first, c.last)) =
    [(.numeric, 0, 2), (.numeric, 4, 6), (.numeric, 10, 13), (.grouped, 0, 6),
      (.alnum, 8, 13)] := by
  decide +kernel

end Passcode
