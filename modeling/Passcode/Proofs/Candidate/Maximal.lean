import Mathlib.Data.List.Nodup
import Mathlib.Data.List.SplitBy
import Passcode.Proofs.Candidate.Chains

/-!
# Maximal chains — what makes a chain of chunks one of a list

The chains of a list of runs are the parts into which the list falls between runs that are not
linked (`chains_eq_splitBy`).  So a chain is a linked stretch of the list that is linked neither to
what stands before it nor to what stands behind it (`exists_split_of_mem_chains`), and each such
stretch is a chain (`mem_chains_append`).

A chunk of a text is linked to the chunk behind it and to no other (`exists_of_linked`,
`getLast_of_linked`), so the last chunk of a chain is linked to none (`not_linkedTo_of_last`).

Each chain of four to eight digits yields its code, be it as a candidate of its own or as one that
was seen before (`code_of_mem_chains`).
-/

namespace Passcode

/-- No run at the end of the first list is linked to one at the start of the second. -/
def UnlinkedTo (rs ss : List Run) : Prop :=
  ∀ r ∈ rs.getLast?, ∀ s ∈ ss.head?, r.linkedTo s = false

variable {r s : Run} {rs ss : List Run} {more : List (List Run)}

/-! ### The parts of a list -/

theorem flatten_of_splitBy_eq (h : rs.splitBy Run.linkedTo = (s :: ss) :: more) :
    rs = s :: (ss ++ more.flatten) := by
  rw [← List.flatten_splitBy Run.linkedTo rs, h, List.flatten_cons, List.cons_append]

/-- A run that is linked to the next one joins the first part. -/
theorem splitBy_cons_of_linked (h : rs.splitBy Run.linkedTo = (s :: ss) :: more)
    (hlink : r.linkedTo s = true) :
    (r :: rs).splitBy Run.linkedTo = (r :: s :: ss) :: more := by
  obtain ⟨-, hne, hparts, hjoints⟩ := List.splitBy_eq_iff.mp h
  obtain ⟨hfirst, hrest⟩ := List.isChain_cons.mp hjoints
  refine List.splitBy_eq_iff.mpr ⟨?_, ?_, ?_, ?_⟩
  · rw [flatten_of_splitBy_eq h, List.flatten_cons, List.cons_append, List.cons_append]
  · intro hmem
    rcases List.mem_cons.mp hmem with heq | hmem
    · cases heq
    · exact hne (List.mem_cons_of_mem _ hmem)
  · intro part hpart
    rcases List.mem_cons.mp hpart with rfl | hpart
    · exact List.isChain_cons_cons.mpr ⟨hlink, hparts _ List.mem_cons_self⟩
    · exact hparts part (List.mem_cons_of_mem _ hpart)
  · -- The first part ends as it did.
    refine List.isChain_cons.mpr ⟨fun next hnext => ?_, hrest⟩
    obtain ⟨_, hhead, hunlinked⟩ := hfirst next hnext
    exact ⟨List.cons_ne_nil _ _, hhead, hunlinked⟩

/-- A run that is not linked to the next one is a part of its own. -/
theorem splitBy_cons_of_unlinked (h : rs.splitBy Run.linkedTo = (s :: ss) :: more)
    (hlink : r.linkedTo s = false) :
    (r :: rs).splitBy Run.linkedTo = [r] :: (s :: ss) :: more := by
  have hunlinked : UnlinkedTo [r] rs := by
    intro x hx y hy
    rw [flatten_of_splitBy_eq h] at hy
    cases hx
    cases hy
    exact hlink
  rw [← List.singleton_append, List.splitBy_append hunlinked, h]
  rfl

theorem chains_eq_splitBy (rs : List Run) : chains rs = rs.splitBy Run.linkedTo := by
  induction rs with
  | nil => rfl
  | cons r rs ih =>
    rw [chains, ih]
    rcases hsplit : rs.splitBy Run.linkedTo with _ | ⟨_ | ⟨s, ss⟩, more⟩
    · have hflatten := List.flatten_splitBy Run.linkedTo rs
      rw [hsplit] at hflatten
      rw [← hflatten]
      rfl
    · have hne := List.nil_notMem_splitBy Run.linkedTo rs
      rw [hsplit] at hne
      exact absurd List.mem_cons_self hne
    · cases hlink : r.linkedTo s with
      | true => rw [splitBy_cons_of_linked hsplit hlink]; exact if_pos hlink
      | false =>
        rw [splitBy_cons_of_unlinked hsplit hlink]
        exact if_neg (Bool.eq_false_iff.mp hlink)

/-- A linked stretch of a list that is linked to neither side is a chain of it. -/
theorem mem_chains_append {pre chain post : List Run} (hne : chain ≠ [])
    (hchain : chain.IsChain (fun r s => r.linkedTo s = true)) (hpre : UnlinkedTo pre chain)
    (hpost : UnlinkedTo chain post) : chain ∈ chains (pre ++ chain ++ post) := by
  have hleft : UnlinkedTo pre (chain ++ post) := by
    intro r hr s hs
    rw [List.head?_append_of_ne_nil _ hne] at hs
    exact hpre r hr s hs
  rw [chains_eq_splitBy, List.append_assoc, List.splitBy_append hleft, List.splitBy_append hpost,
    List.splitBy_of_isChain hne hchain]
  exact List.mem_append_right _ (List.mem_append_left _ (List.mem_singleton_self _))

/-- A chain is a linked stretch of the list that is linked to neither side. -/
theorem exists_split_of_mem_chains {rs chain : List Run} (h : chain ∈ chains rs) :
    ∃ pre post, rs = pre ++ chain ++ post ∧ chain ≠ [] ∧
      chain.IsChain (fun r s => r.linkedTo s = true) ∧ UnlinkedTo pre chain ∧
        UnlinkedTo chain post := by
  rw [chains_eq_splitBy] at h
  have hne := List.ne_nil_of_mem_splitBy h
  have hchain := List.isChain_of_mem_splitBy h
  obtain ⟨front, back, hsplit⟩ := List.append_of_mem h
  obtain ⟨hflatten, hnil, -, hjoints⟩ := List.splitBy_eq_iff.mp hsplit
  rw [List.isChain_append] at hjoints
  obtain ⟨-, hback, hfront⟩ := hjoints
  refine ⟨front.flatten, back.flatten, ?_, hne, hchain, ?_, ?_⟩
  · rw [hflatten, List.flatten_append, List.flatten_cons, List.append_assoc]
  · intro r hr s hs
    rcases List.eq_nil_or_concat front with rfl | ⟨front, last, rfl⟩
    · cases hr
    · rw [List.concat_eq_append] at hfront hr
      obtain ⟨hlast, hhead, hunlinked⟩ := hfront last List.getLast?_concat chain rfl
      rw [List.flatten_append, List.flatten_singleton,
        List.getLast?_append_of_ne_nil _ hlast, List.getLast?_eq_getLast_of_ne_nil hlast] at hr
      rw [List.head?_eq_some_head hhead] at hs
      cases hr
      cases hs
      exact hunlinked
  · intro r hr s hs
    cases back with
    | nil => cases hs
    | cons first back =>
      obtain ⟨hlast, hhead, hunlinked⟩ := (List.isChain_cons.mp hback).1 first rfl
      rw [List.flatten_cons, List.head?_append_of_ne_nil _ hhead,
        List.head?_eq_some_head hhead] at hs
      rw [List.getLast?_eq_getLast_of_ne_nil hlast] at hr
      cases hr
      cases hs
      exact hunlinked

/-! ### Where the chains of a text stand -/

section Chunks

variable {scan : Text} {pre chain post : List Run}

theorem chunks_pairwise (scan : Text) : (chunks scan).Pairwise (fun a b => a.stop < b.start) :=
  (Text.runs_pairwise Text.isAsciiDigit scan).filter _

/-- The runs of a chain and those before it end no later than its last run. -/
theorem stop_le_chainStop (h : chunks scan = pre ++ chain ++ post) (hne : chain ≠ []) :
    ∀ r ∈ pre ++ chain, r.stop ≤ chainStop chain := by
  have hpair := chunks_pairwise scan
  rw [h] at hpair
  obtain ⟨init, last, rfl⟩ : ∃ init last, chain = init ++ [last] :=
    ⟨_, _, (List.dropLast_append_getLast hne).symm⟩
  have hlast : chainStop (init ++ [last]) = last.stop := by
    rw [chainStop, List.getLast?_concat]; rfl
  rw [← List.append_assoc] at hpair ⊢
  have hbefore := (List.pairwise_append.mp (List.pairwise_append.mp hpair).1).2.2
  intro r hr
  rw [hlast]
  rcases List.mem_append.mp hr with hr | hr
  · have hlt := hbefore r hr last (List.mem_singleton_self _)
    have hle : last.start ≤ last.stop := Nat.le_add_right _ _
    omega
  · rw [List.mem_singleton.mp hr]

/-! ### Which chunks are linked -/

/-- What a chunk is linked to is the next chunk. -/
theorem exists_of_linked (hsplit : chunks scan = pre ++ r :: rs) (hs : s ∈ chunks scan)
    (hlink : r.linkedTo s = true) : ∃ rest, rs = s :: rest := by
  have hpair := chunks_pairwise scan
  have hnext := (Run.linkedTo_iff.mp hlink).2
  have span : ∀ {a : Run}, a ∈ chunks scan → a.start < a.stop :=
    fun ha => Run.start_lt_stop_of_mem (mem_runs_of_mem_chunks ha).1
  have hspan := span hs
  rw [hsplit] at hpair hs span
  obtain ⟨-, hlater, hearlier⟩ := List.pairwise_append.mp hpair
  obtain ⟨hbehind, hrest⟩ := List.pairwise_cons.mp hlater
  have hr := span (List.mem_append_right _ List.mem_cons_self)
  rcases List.mem_append.mp hs with hs | hs
  · have := hearlier s hs r List.mem_cons_self
    omega
  rcases List.mem_cons.mp hs with rfl | hs
  · omega
  cases rs with
  | nil => cases hs
  | cons x rest =>
    rcases List.mem_cons.mp hs with rfl | hs
    · exact ⟨rest, rfl⟩
    · -- Another chunk would lie between the two.
      have hx := hbehind x List.mem_cons_self
      have hxs := (List.pairwise_cons.mp hrest).1 s hs
      have := span (List.mem_append_right _ (List.mem_cons_of_mem _ List.mem_cons_self))
      omega

theorem chunks_nodup (scan : Text) : (chunks scan).Nodup := by
  refine (chunks_pairwise scan).imp_of_mem fun {a b} ha _ hlt heq => ?_
  have hspan := Run.start_lt_stop_of_mem (mem_runs_of_mem_chunks ha).1
  rw [← heq] at hlt
  omega

/-- A chunk that is linked to another stands right before it. -/
theorem getLast_of_linked (hsplit : chunks scan = pre ++ s :: post)
    (hr : r ∈ chunks scan) (hlink : r.linkedTo s = true) : pre.getLast? = some r := by
  have hs : s ∈ chunks scan := hsplit ▸ List.mem_append_right _ List.mem_cons_self
  obtain ⟨done, rest, hat⟩ := List.append_of_mem hr
  obtain ⟨rest, rfl⟩ := exists_of_linked hat hs hlink
  have honce := chunks_nodup scan
  have hsame : (done ++ [r]) ++ s :: rest = pre ++ s :: post := by
    rw [← hsplit, hat, List.append_assoc, List.singleton_append]
  rw [hsplit, List.nodup_middle, List.nodup_cons, List.mem_append, not_or] at honce
  obtain ⟨hpre, -⟩ := (List.append_cons_inj_of_notMem honce.1.1 honce.1.2).mp hsame.symm
  rw [hpre, List.getLast?_concat]

/-- The last chunk of a chain is linked to none. -/
theorem not_linkedTo_of_last (hmem : chain ∈ chains (chunks scan)) :
    ∀ r ∈ chain.getLast?, ∀ s ∈ chunks scan, r.linkedTo s = false := by
  obtain ⟨pre, post, hsplit, -, -, -, hpost⟩ := exists_split_of_mem_chains hmem
  intro r hr s hs
  refine Bool.eq_false_iff.mpr fun hlink => ?_
  obtain ⟨init, rfl⟩ := List.getLast?_eq_some_iff.mp hr
  have hat : chunks scan = (pre ++ init) ++ r :: post := by
    rw [hsplit, ← List.append_assoc, List.append_assoc (pre ++ init), List.singleton_append]
  obtain ⟨rest, rfl⟩ := exists_of_linked hat hs hlink
  rw [hpost r hr s rfl] at hlink
  cases hlink

end Chunks

/-! ### Codes of chains -/

/-- Each chain of four to eight digits yields its code, or the code was seen before. -/
theorem code_of_mem_chains {seen : List Text} {all : List (List Run)} {chain : List Run}
    (h : chain ∈ all) (hlow : 4 ≤ (chainCode chain).length) (hhigh : (chainCode chain).length ≤ 8) :
    chainCode chain ∈ seen ∨ ∃ c ∈ chainCandidates seen all, c.code = chainCode chain := by
  induction all generalizing seen with
  | nil => cases h
  | cons first rest ih =>
    rw [chainCandidates]
    split
    · rename_i hcond
      rcases List.mem_cons.mp h with rfl | h
      · exact .inr ⟨_, List.mem_cons_self, rfl⟩
      · have hrest : chainCode chain ∈ chainCode first :: seen ∨
            ∃ c ∈ chainCandidates (chainCode first :: seen) rest, c.code = chainCode chain := ih h
        rcases hrest with hseen | ⟨c, hc, hcode⟩
        · rcases List.mem_cons.mp hseen with heq | hseen
          · exact .inr ⟨_, List.mem_cons_self, heq.symm⟩
          · exact .inl hseen
        · exact .inr ⟨c, List.mem_cons_of_mem _ hc, hcode⟩
    · rename_i hcond
      rcases List.mem_cons.mp h with rfl | h
      · -- The length is right, so it is seen.
        left
        simp only [hlow, hhigh, decide_true, Bool.true_and, Bool.not_eq_true', Bool.not_eq_false,
          List.contains_iff_mem] at hcond
        exact hcond
      · exact ih h

end Passcode
