import Passcode.Candidate.Extract
import Passcode.Proofs.Text.Runs

/-!
# Chains — what a group of digits is made of

A grouped candidate comes from a chain of chunks, each linked to the next by a single space or dash
(`Linked`, `linked_of_mem_chains`).  By induction on the chain:

* `Linked.stop_eq`: its span has one character more than its code for each of its links.
* `Linked.length_of_mem`: each chunk leaves at least two digits of the code to each other chunk.
* `Linked.mem_of_start`: a run of digits that starts within the chain is one of its chunks.

`foundIn_of_mem_candidatesOf` says of each candidate of a message what it was made from.
-/

namespace Passcode

variable {scan : Text} {chain : List Run}

/-! ### Linked chunks -/

/-- A chunk is a run of two to four digits. -/
theorem mem_runs_of_mem_chunks {r : Run} (h : r ∈ chunks scan) :
    r ∈ Text.runs Text.isAsciiDigit scan ∧ 2 ≤ r.body.length ∧ r.body.length ≤ 4 := by
  obtain ⟨hmem, hcond⟩ := List.mem_filter.mp h
  simp only [Bool.and_eq_true, decide_eq_true_eq] at hcond
  exact ⟨hmem, hcond.1.1, hcond.1.2⟩

/-- Two runs are linked if one space or hyphen stands between them. -/
theorem Run.linkedTo_iff {a b : Run} :
    a.linkedTo b = true ↔ (a.after = some ' ' ∨ a.after = some '-') ∧ b.start = a.stop + 1 := by
  simp only [linkedTo, Bool.and_eq_true, Bool.or_eq_true, beq_iff_eq]

/-- The runs are chunks of the masked text, each linked to the next. -/
inductive Linked (scan : Text) : List Run → Prop where
  | single {r : Run} (h : r ∈ chunks scan) : Linked scan [r]
  | cons {r s : Run} {ss : List Run} (h : r ∈ chunks scan) (hlink : r.linkedTo s = true)
      (hrest : Linked scan (s :: ss)) : Linked scan (r :: s :: ss)

/-- Chains of chunks are linked. -/
theorem linked_of_mem_chains {rs : List Run} (hrs : ∀ r ∈ rs, r ∈ chunks scan)
    (h : chain ∈ chains rs) : Linked scan chain := by
  induction rs generalizing chain with
  | nil => cases h
  | cons r rs ih =>
    have hr := hrs r List.mem_cons_self
    have hrest : ∀ more ∈ chains rs, Linked scan more :=
      fun more hm => ih (fun s hs => hrs s (List.mem_cons_of_mem _ hs)) hm
    have alone : ∀ {more : List (List Run)}, (∀ c ∈ more, Linked scan c) → chain ∈ [r] :: more →
        Linked scan chain := by
      intro more hmore hmem
      rcases List.mem_cons.mp hmem with rfl | hmem
      · exact .single hr
      · exact hmore chain hmem
    rw [chains] at h
    split at h
    · rename_i s ss more heq
      rw [heq] at hrest
      split at h
      · rename_i hlink
        rcases List.mem_cons.mp h with rfl | h
        · exact .cons hr hlink (hrest _ List.mem_cons_self)
        · exact hrest chain (List.mem_cons_of_mem _ h)
      · exact alone hrest h
    · exact alone hrest h

/-! ### The span of a chain -/

/-- The index of the first digit of a chain. -/
def chainStart (chain : List Run) : Nat := (chain.head?.map Run.start).getD 0

/-- The index behind the last digit of a chain. -/
def chainStop (chain : List Run) : Nat := (chain.getLast?.map Run.stop).getD 0

theorem chainStop_cons_cons (r s : Run) (ss : List Run) :
    chainStop (r :: s :: ss) = chainStop (s :: ss) := rfl

theorem chainCode_cons (r : Run) (rs : List Run) :
    chainCode (r :: rs) = r.body ++ chainCode rs := List.flatMap_cons

namespace Linked

theorem mem_chunks (h : Linked scan chain) : ∀ r ∈ chain, r ∈ chunks scan := by
  induction h with
  | single hr => exact List.forall_mem_singleton.mpr hr
  | cons hr _ _ ih => exact List.forall_mem_cons.mpr ⟨hr, ih⟩

theorem start_lt_stop (h : Linked scan chain) : chainStart chain < chainStop chain := by
  induction h with
  | single hr => exact Run.start_lt_stop_of_mem (mem_runs_of_mem_chunks hr).1
  | cons hr hlink _ ih =>
    rename_i r s ss
    have hstart := Run.start_lt_stop_of_mem (mem_runs_of_mem_chunks hr).1
    have hnext := (Run.linkedTo_iff.mp hlink).2
    rw [chainStop_cons_cons]
    simp only [chainStart, List.head?_cons, Option.map_some, Option.getD_some] at ih ⊢
    omega

/-- The span of a chain has one character more than its code for each of its links. -/
theorem stop_eq (h : Linked scan chain) :
    chainStop chain + 1 = chainStart chain + (chainCode chain).length + chain.length := by
  induction h with
  | single hr =>
    rename_i r
    simp [chainStop, chainStart, chainCode, Run.stop]
  | cons hr hlink _ ih =>
    rename_i r s ss
    have hnext := (Run.linkedTo_iff.mp hlink).2
    rw [chainStop_cons_cons, chainCode_cons, List.length_append, List.length_cons]
    simp only [chainStart, List.head?_cons, Option.map_some, Option.getD_some,
      Run.stop] at ih hnext ⊢
    omega

/-- A chain has at least two digits for each of its chunks. -/
theorem two_mul_length_le (h : Linked scan chain) :
    2 * chain.length ≤ (chainCode chain).length := by
  induction h with
  | single hr =>
    have := (mem_runs_of_mem_chunks hr).2.1
    simpa [chainCode] using this
  | cons hr hlink _ ih =>
    have := (mem_runs_of_mem_chunks hr).2.1
    rw [chainCode_cons, List.length_append, List.length_cons]
    omega

/-- Each chunk leaves at least two digits of the code to each other chunk. -/
theorem length_of_mem (h : Linked scan chain) {r : Run} (hr : r ∈ chain) :
    r.body.length + 2 * chain.length ≤ (chainCode chain).length + 2 := by
  induction h with
  | single hs =>
    cases List.mem_singleton.mp hr
    simp [chainCode]
  | cons hs hlink hrest ih =>
    have hlen := (mem_runs_of_mem_chunks hs).2.1
    have htwo := hrest.two_mul_length_le
    rw [chainCode_cons, List.length_append, List.length_cons]
    rcases List.mem_cons.mp hr with rfl | hr'
    · omega
    · have := ih hr'; omega

theorem stop_le_length (h : Linked scan chain) : chainStop chain ≤ scan.length := by
  induction h with
  | single hr => exact Run.stop_le_length_of_mem (mem_runs_of_mem_chunks hr).1
  | cons _ _ _ ih => exact ih

/-- A chain starts with a digit. -/
theorem digit_at_start (h : Linked scan chain) :
    ∃ c, scan[chainStart chain]? = some c ∧ Text.isAsciiDigit c = true := by
  have first : ∀ {r : Run}, r ∈ chunks scan →
      ∃ c, scan[r.start]? = some c ∧ Text.isAsciiDigit c = true := by
    intro r hr
    have hrun := (mem_runs_of_mem_chunks hr).1
    exact Run.exists_of_mem hrun (Nat.le_refl _) (Run.start_lt_stop_of_mem hrun)
  cases h with
  | single hr => exact first hr
  | cons hr => exact first hr

/-- A chain ends with a digit. -/
theorem digit_at_last (h : Linked scan chain) :
    ∃ c, scan[chainStop chain - 1]? = some c ∧ Text.isAsciiDigit c = true := by
  induction h with
  | single hr =>
    rename_i r
    have hrun := (mem_runs_of_mem_chunks hr).1
    have hlt := Run.start_lt_stop_of_mem hrun
    have hstop : chainStop [r] = r.stop := rfl
    exact Run.exists_of_mem hrun (by omega) (by omega)
  | cons _ _ _ ih => exact ih

/-- The code of a chain has digits only. -/
theorem isAsciiDigit_of_mem_code (h : Linked scan chain) :
    ∀ c ∈ chainCode chain, Text.isAsciiDigit c = true := by
  intro c hc
  obtain ⟨r, hr, hbody⟩ := List.mem_flatMap.mp hc
  exact Run.forall_of_mem (mem_runs_of_mem_chunks (h.mem_chunks r hr)).1 c hbody

/-- A run of digits that starts within a chain is one of its chunks. -/
theorem mem_of_start (h : Linked scan chain) {r : Run} (hr : r ∈ Text.runs Text.isAsciiDigit scan)
    (hstart : chainStart chain ≤ r.start) (hstop : r.start < chainStop chain) : r ∈ chain := by
  have same : ∀ {s : Run}, s ∈ chunks scan → s.start ≤ r.start → r.start < s.stop → r = s := by
    intro s hs h1 h2
    have hrun := Run.start_lt_stop_of_mem hr
    rcases Text.runs_apart hr (mem_runs_of_mem_chunks hs).1 with heq | hlt | hlt
    · exact heq
    · omega
    · omega
  induction h with
  | single hs => exact List.mem_singleton.mpr (same hs hstart hstop)
  | cons hs hlink hrest ih =>
    rename_i a s ss
    obtain ⟨hafter, hnext⟩ := Run.linkedTo_iff.mp hlink
    rcases Nat.lt_trichotomy r.start a.stop with hlt | heq | hgt
    · exact List.mem_cons.mpr (.inl (same hs hstart hlt))
    · -- Behind a chunk stands a space or a dash, where no run of digits starts.
      obtain ⟨c, hc, hdigit⟩ := Run.exists_of_mem hr (Nat.le_refl _) (Run.start_lt_stop_of_mem hr)
      rw [Run.after_of_mem (mem_runs_of_mem_chunks hs).1, ← heq, hc] at hafter
      rcases hafter with hafter | hafter <;> cases hafter <;> exact absurd hdigit (by decide)
    · have hhead : chainStart (s :: ss) = s.start := rfl
      exact List.mem_cons_of_mem _ (ih (by omega) hstop)

end Linked

/-! ### What a candidate is made from -/

theorem ofChain_first (chain : List Run) : (Candidate.ofChain chain).first = chainStart chain := rfl

theorem ofChain_last (chain : List Run) :
    (Candidate.ofChain chain).last = (chainStop chain : Int) - 1 := rfl

/-- What a candidate was made from in the masked text, by its source. -/
inductive Candidate.FoundIn (scan : Text) : Candidate → Prop where
  | numeric {r : Run} (h : r ∈ Text.runs Text.isAsciiDigit scan) (hlow : 3 ≤ r.body.length)
      (hhigh : r.body.length ≤ 10) : FoundIn scan (.ofRun .numeric true r)
  | grouped {chain : List Run} (h : Linked scan chain) (hmany : 2 ≤ chain.length)
      (hlow : 4 ≤ (chainCode chain).length) (hhigh : (chainCode chain).length ≤ 8) :
      FoundIn scan (.ofChain chain)
  | alnum {r : Run} (h : r ∈ Text.runs Text.isWord scan) (htoken : isToken r.body = true) :
      FoundIn scan (.ofRun .alnum false r)

/-- A grouped candidate comes from a chain of four to eight digits. -/
theorem exists_of_mem_chainCandidates {seen : List Text} {all : List (List Run)} {c : Candidate}
    (h : c ∈ chainCandidates seen all) :
    ∃ chain ∈ all, 4 ≤ (chainCode chain).length ∧ (chainCode chain).length ≤ 8 ∧
      c = .ofChain chain := by
  induction all generalizing seen with
  | nil => cases h
  | cons chain rest ih =>
    have later : ∀ {seen : List Text}, c ∈ chainCandidates seen rest →
        ∃ chain' ∈ chain :: rest, 4 ≤ (chainCode chain').length ∧
          (chainCode chain').length ≤ 8 ∧ c = .ofChain chain' := by
      intro seen hc
      obtain ⟨chain', hmem, hrest⟩ := ih hc
      exact ⟨chain', List.mem_cons_of_mem _ hmem, hrest⟩
    rw [chainCandidates] at h
    split at h
    · rename_i hcond
      simp only [Bool.and_eq_true, decide_eq_true_eq] at hcond
      rcases List.mem_cons.mp h with rfl | h
      · exact ⟨chain, List.mem_cons_self, hcond.1.1, hcond.1.2, rfl⟩
      · exact later h
    · exact later h

/-- Every candidate is found in the masked text. -/
theorem foundIn_of_mem_candidatesOf {text : Text} {c : Candidate} (h : c ∈ candidatesOf text) :
    c.FoundIn (maskNoise text) := by
  rw [candidatesOf] at h
  rcases List.mem_append.mp h with h | h
  · rcases List.mem_append.mp h with h | h
    · obtain ⟨r, hr, rfl⟩ := List.mem_map.mp h
      obtain ⟨hmem, hlen⟩ := List.mem_filter.mp hr
      simp only [Bool.and_eq_true, decide_eq_true_eq] at hlen
      exact .numeric hmem hlen.1 hlen.2
    · obtain ⟨chain, hchain, hlow, hhigh, rfl⟩ := exists_of_mem_chainCandidates h
      obtain ⟨hmem, hmany⟩ := List.mem_filter.mp hchain
      exact .grouped (linked_of_mem_chains (fun _ hr => hr) hmem) (of_decide_eq_true hmany)
        hlow hhigh
  · obtain ⟨r, hr, rfl⟩ := List.mem_map.mp h
    obtain ⟨hmem, htoken⟩ := List.mem_filter.mp hr
    exact .alnum hmem htoken

end Passcode
