import Mathlib.Data.List.Chain
import Mathlib.Data.List.Pairwise
import Passcode.Proofs.Pattern.Chains

/-!
# Groups — which groups of digits are candidates

A chunk is a maximal run of two to four digits that touches no word character (`IsChunk`), and a
group a sequence of two chunks or more, each parted from the next by one space or one dash, that no
chunk can be joined to (`IsGroup`).  These are the chains that the pass over the chunks builds
(`mem_chains_iff`).

Going through the chains from left to right, with the codes seen so far, keeps those of at most
eight digits whose code is new (`exists_kept`).  `grouped_exactly` says so of the candidates of a
message.
-/

namespace Passcode

open Text

/-! ### Chunks and groups -/

/-- A maximal run of two to four digits that touches no word character. -/
structure IsChunk (scan : Text) (r : Run) : Prop where
  maximal : r.MaximalIn isAsciiDigit scan
  low : 2 ≤ r.body.length
  high : r.body.length ≤ 4
  before : ∀ c ∈ r.before, isWord c = false
  after : ∀ c ∈ r.after, isWord c = false

/-- Between the two runs stands one space or one dash and nothing else. -/
def PartedByOne (scan : Text) (r s : Run) : Prop :=
  s.start = r.stop + 1 ∧ (scan[r.stop]? = some ' ' ∨ scan[r.stop]? = some '-')

/-- A maximal sequence of at least two chunks, each parted from the next by one separator. -/
structure IsGroup (scan : Text) (group : List Run) : Prop where
  many : 2 ≤ group.length
  chunks : ∀ r ∈ group, IsChunk scan r
  parted : group.IsChain (PartedByOne scan)
  /-- No chunk can be put before the first one. -/
  first : ∀ r, IsChunk scan r → ∀ s ∈ group.head?, ¬ PartedByOne scan r s
  /-- No chunk can be put behind the last one. -/
  last : ∀ s, IsChunk scan s → ∀ r ∈ group.getLast?, ¬ PartedByOne scan r s

variable {scan : Text} {r s : Run} {chain : List Run}

/-- The chunks that are searched for are those that are described. -/
theorem mem_chunks_iff_isChunk : r ∈ chunks scan ↔ IsChunk scan r := by
  rw [chunks, List.mem_filter, mem_runs_iff, Run.isolatedFrom]
  simp only [Bool.and_eq_true, decide_eq_true_eq, Option.all_eq_true, Bool.not_eq_true']
  constructor
  · rintro ⟨hmax, ⟨hlow, hhigh⟩, hbefore, hafter⟩
    exact ⟨hmax, hlow, hhigh, hbefore, hafter⟩
  · rintro ⟨hmax, hlow, hhigh, hbefore, hafter⟩
    exact ⟨hmax, ⟨hlow, hhigh⟩, hbefore, hafter⟩

/-- Two chunks are parted by one separator exactly if they are linked. -/
theorem partedByOne_iff (hr : r ∈ chunks scan) : PartedByOne scan r s ↔ r.linkedTo s = true := by
  rw [Run.linkedTo_iff, PartedByOne, Run.after_of_mem (mem_runs_of_mem_chunks hr).1, and_comm]

theorem isChain_partedByOne_iff (hchunks : ∀ r ∈ chain, r ∈ chunks scan) :
    chain.IsChain (PartedByOne scan) ↔ chain.IsChain (fun r s => r.linkedTo s = true) :=
  List.IsChain.iff_of_mem_imp fun r _ hr _ => partedByOne_iff (hchunks r hr)

/-! ### Groups are chains -/

/-- Linked chunks follow one another in the list of all chunks. -/
theorem exists_of_isChain {done rs ss : List Run} (hsplit : chunks scan = done ++ r :: rs)
    (hchain : (r :: ss).IsChain (fun r s => r.linkedTo s = true))
    (hchunks : ∀ s ∈ ss, s ∈ chunks scan) : ∃ post, rs = ss ++ post := by
  induction ss generalizing done r rs with
  | nil => exact ⟨rs, rfl⟩
  | cons s ss ih =>
    obtain ⟨hlink, hrest⟩ := List.isChain_cons_cons.mp hchain
    obtain ⟨rest, rfl⟩ := exists_of_linked hsplit (hchunks s List.mem_cons_self) hlink
    obtain ⟨post, rfl⟩ := ih (by rw [hsplit, List.append_cons]) hrest
      fun x hx => hchunks x (List.mem_cons_of_mem _ hx)
    exact ⟨post, rfl⟩

/-- A chain of two chunks or more is a group. -/
theorem isGroup_of_mem_chains (hmem : chain ∈ chains (chunks scan)) (hmany : 2 ≤ chain.length) :
    IsGroup scan chain := by
  obtain ⟨pre, post, hsplit, -, hlinked, hpre, -⟩ := exists_split_of_mem_chains hmem
  have hchunks : ∀ r ∈ chain, r ∈ chunks scan :=
    (linked_of_mem_chains (fun _ hr => hr) hmem).mem_chunks
  refine ⟨hmany, fun r hr => mem_chunks_iff_isChunk.mp (hchunks r hr),
    (isChain_partedByOne_iff hchunks).mpr hlinked, fun r hr s hs hparted => ?_,
    fun s hs r hr hparted => ?_⟩
  · obtain ⟨rest, rfl⟩ := List.head?_eq_some_iff.mp hs
    have hr := mem_chunks_iff_isChunk.mpr hr
    have hlink := (partedByOne_iff hr).mp hparted
    have hlast := getLast_of_linked (by rw [hsplit, List.append_assoc]; rfl) hr hlink
    rw [hpre r hlast s rfl] at hlink
    cases hlink
  · have hlink := (partedByOne_iff (hchunks r (List.mem_of_getLast? hr))).mp hparted
    rw [not_linkedTo_of_last hmem r hr s (mem_chunks_iff_isChunk.mpr hs)] at hlink
    cases hlink

/-- Every group is one of the chains. -/
theorem mem_chains_of_isGroup (h : IsGroup scan chain) : chain ∈ chains (chunks scan) := by
  have hchunks : ∀ r ∈ chain, r ∈ chunks scan :=
    fun r hr => mem_chunks_iff_isChunk.mpr (h.chunks r hr)
  have hlinked := (isChain_partedByOne_iff hchunks).mp h.parted
  cases chain with
  | nil => exact absurd h.many (Nat.not_succ_le_zero _)
  | cons r ss =>
    obtain ⟨pre, rs, hat⟩ := List.append_of_mem (hchunks r List.mem_cons_self)
    obtain ⟨post, rfl⟩ := exists_of_isChain hat hlinked
      fun s hs => hchunks s (List.mem_cons_of_mem _ hs)
    have hmem : ∀ {x : Run}, x ∈ pre ++ r :: (ss ++ post) → x ∈ chunks scan := fun hx => hat ▸ hx
    have hsplit : chunks scan = pre ++ (r :: ss) ++ post := by
      rw [hat, List.append_assoc, List.cons_append]
    rw [hsplit]
    refine mem_chains_append (List.cons_ne_nil _ _) hlinked (fun x hx s hs => ?_)
      (fun x hx s hs => ?_)
    · have hx' := hmem (List.mem_append_left _ (List.mem_of_getLast? hx))
      refine Bool.eq_false_iff.mpr fun hlink => ?_
      exact h.first x (mem_chunks_iff_isChunk.mp hx') s hs ((partedByOne_iff hx').mpr hlink)
    · have hx' := hchunks x (List.mem_of_getLast? hx)
      have hs' := hsplit ▸ List.mem_append_right (pre ++ (r :: ss)) (List.mem_of_head? hs)
      refine Bool.eq_false_iff.mpr fun hlink => ?_
      exact h.last s (mem_chunks_iff_isChunk.mp hs') x hx ((partedByOne_iff hx').mpr hlink)

/-- **The groups of a text are its chains of two chunks or more.** -/
theorem mem_chains_iff :
    chain ∈ (chains (chunks scan)).filter (fun chain => 2 ≤ chain.length) ↔ IsGroup scan chain := by
  rw [List.mem_filter, decide_eq_true_eq]
  exact ⟨fun ⟨hmem, hmany⟩ => isGroup_of_mem_chains hmem hmany,
    fun h => ⟨mem_chains_of_isGroup h, h.many⟩⟩

/-! ### What is kept of the chains -/

theorem chainCandidates_cons (seen : List Text) (chain : List Run) (rest : List (List Run)) :
    chainCandidates seen (chain :: rest) =
      if 4 ≤ (chainCode chain).length ∧ (chainCode chain).length ≤ 8 ∧ chainCode chain ∉ seen then
        Candidate.ofChain chain :: chainCandidates (chainCode chain :: seen) rest
      else chainCandidates seen rest := by
  rw [chainCandidates]
  simp only [Bool.and_eq_true, decide_eq_true_eq, Bool.not_eq_true', List.contains_eq_mem,
    decide_eq_false_iff_not, and_assoc]

/-- The chains that become candidates are those of a fitting length whose code is new. -/
theorem exists_kept (seen : List Text) {all : List (List Run)}
    (hall : all.Pairwise (fun a b => chainStart a < chainStart b)) :
    ∃ kept : List (List Run), chainCandidates seen all = kept.map Candidate.ofChain ∧
      kept.Sublist all ∧
      ∀ chain, chain ∈ kept ↔ chain ∈ all ∧ 4 ≤ (chainCode chain).length ∧
        (chainCode chain).length ≤ 8 ∧ chainCode chain ∉ seen ∧
        ∀ other ∈ kept, chainStart other < chainStart chain →
          chainCode other ≠ chainCode chain := by
  induction all generalizing seen with
  | nil => exact ⟨[], rfl, List.Sublist.slnil, fun chain => ⟨nofun, nofun⟩⟩
  | cons first rest ih =>
    obtain ⟨hfirst, hrest⟩ := List.pairwise_cons.mp hall
    rw [chainCandidates_cons]
    split
    · rename_i hfits
      obtain ⟨kept, heq, hsub, hkept⟩ := ih (chainCode first :: seen) hrest
      refine ⟨first :: kept, by rw [heq, List.map_cons], hsub.cons_cons _, fun chain => ⟨?_, ?_⟩⟩
      · intro hmem
        rcases List.mem_cons.mp hmem with rfl | hmem
        · refine ⟨List.mem_cons_self, hfits.1, hfits.2.1, hfits.2.2, fun other hother hlt => ?_⟩
          rcases List.mem_cons.mp hother with rfl | hother
          · exact absurd hlt (Nat.lt_irrefl _)
          · exact absurd (hfirst other (hsub.subset hother)) (Nat.lt_asymm hlt)
        · obtain ⟨hin, hlow, hhigh, hseen, hothers⟩ := (hkept chain).mp hmem
          refine ⟨List.mem_cons_of_mem _ hin, hlow, hhigh,
            fun h => hseen (List.mem_cons_of_mem _ h), fun other hother hlt => ?_⟩
          rcases List.mem_cons.mp hother with rfl | hother
          · exact fun heq => hseen (heq ▸ List.mem_cons_self)
          · exact hothers other hother hlt
      · rintro ⟨hin, hlow, hhigh, hseen, hothers⟩
        rcases List.mem_cons.mp hin with rfl | hin
        · exact List.mem_cons_self
        · -- The code of the first chain is seen from now on.
          refine List.mem_cons_of_mem _ ((hkept chain).mpr ⟨hin, hlow, hhigh, fun h => ?_,
            fun other hother hlt => hothers other (List.mem_cons_of_mem _ hother) hlt⟩)
          rcases List.mem_cons.mp h with heq | h
          · exact hothers first List.mem_cons_self (hfirst chain hin) heq.symm
          · exact hseen h
    · rename_i hfits
      obtain ⟨kept, heq, hsub, hkept⟩ := ih seen hrest
      refine ⟨kept, heq, hsub.cons _, fun chain => (hkept chain).trans
        ⟨fun h => ⟨List.mem_cons_of_mem _ h.1, h.2⟩, ?_⟩⟩
      rintro ⟨hin, hlow, hhigh, hseen, hothers⟩
      rcases List.mem_cons.mp hin with rfl | hin
      · exact absurd ⟨hlow, hhigh, hseen⟩ hfits
      · exact ⟨hin, hlow, hhigh, hseen, hothers⟩

/-! ### The candidates of a message -/

section Candidates

variable {text : Text}

/-- The grouped candidates of a text are those of the grouped pass. -/
theorem filter_grouped (text : Text) :
    (candidatesOf text).filter (fun c => c.source = .grouped) =
      groupedPass ((numericPass (maskNoise text)).map Candidate.code) (maskNoise text) :=
  filter_source text .grouped

/-- The numeric candidates of a text are those of the numeric pass. -/
theorem mem_numericPass_iff {c : Candidate} :
    c ∈ numericPass (maskNoise text) ↔ c ∈ candidatesOf text ∧ c.source = .numeric := by
  have hpass : (candidatesOf text).filter (fun c => c.source = .numeric) =
      numericPass (maskNoise text) := filter_source text .numeric
  rw [← hpass, List.mem_filter, decide_eq_true_eq]

/-- A code is new to the runs of digits if no numeric candidate has it. -/
theorem not_mem_numericPass_iff {code : Text} :
    code ∉ (numericPass (maskNoise text)).map Candidate.code ↔
      ∀ c ∈ candidatesOf text, c.source = .numeric → c.code ≠ code := by
  rw [List.mem_map]
  constructor
  · intro h c hc hsource heq
    exact h ⟨c, mem_numericPass_iff.mpr ⟨hc, hsource⟩, heq⟩
  · rintro h ⟨c, hc, heq⟩
    obtain ⟨hc, hsource⟩ := mem_numericPass_iff.mp hc
    exact h c hc hsource heq

/-- Of two different groups one stands before the other. -/
theorem apart_of_ne {groups : List (List Run)}
    (hordered : groups.Pairwise (fun a b => chainStop a < chainStart b)) {a b : List Run}
    (ha : a ∈ groups) (hb : b ∈ groups) (hne : a ≠ b) :
    chainStop a < chainStart b ∨ chainStop b < chainStart a := by
  have hsymm : Std.Symm (fun a b : List Run =>
      chainStop a < chainStart b ∨ chainStop b < chainStart a) := ⟨fun _ _ h => h.symm⟩
  exact (hordered.imp (S := fun a b => chainStop a < chainStart b ∨ chainStop b < chainStart a)
    .inl).forall ha hb hne

/-- **The grouped candidates of a message are exactly its groups of digits** of at most eight digits
whose code is neither that of a run of digits nor that of an earlier group.  They stand from left to
right, and each has the digits of its group as its code and the group as its span.  The groups are
the matches of the group pattern, and one that is passed over is passed over as a whole: no
candidate has a part of it in its span. -/
theorem grouped_exactly (text : Text) :
    ∃ groups found : List (List Run),
      (∀ most, (maskNoise text).length ≤ most →
        Pattern.findAll (maskNoise text) (groupPattern most) =
          groups.map (fun group => (chainStart group, chainStop group))) ∧
      (∀ group, group ∈ groups ↔ IsGroup (maskNoise text) group) ∧
      groups.Pairwise (fun a b => chainStop a < chainStart b) ∧
      (candidatesOf text).filter (fun c => c.source = .grouped) =
        found.map (fun group =>
          { code := group.flatMap Run.body
            first := chainStart group
            last := (chainStop group : Int) - 1
            numeric := true
            source := .grouped }) ∧
      found.Sublist groups ∧
      (∀ group, group ∈ found ↔ IsGroup (maskNoise text) group ∧
        (group.flatMap Run.body).length ≤ 8 ∧
        (∀ c ∈ candidatesOf text, c.source = .numeric → c.code ≠ group.flatMap Run.body) ∧
        ∀ c ∈ candidatesOf text, c.source = .grouped → c.first < chainStart group →
          c.code ≠ group.flatMap Run.body) ∧
      ∀ group, IsGroup (maskNoise text) group → group ∉ found →
        ∀ c ∈ candidatesOf text, c.source = .grouped →
          c.last < chainStart group ∨ chainStop group ≤ c.first := by
  have hordered := (chains_pairwise (maskNoise text)).filter (fun chain => 2 ≤ chain.length)
  have hlinked : ∀ {chain : List Run}, chain ∈ (chains (chunks (maskNoise text))).filter
      (fun chain => 2 ≤ chain.length) → Linked (maskNoise text) chain :=
    fun h => linked_of_mem_chains (fun _ hr => hr) (List.mem_filter.mp h).1
  obtain ⟨found, hfound, hsub, hmem⟩ := exists_kept
    ((numericPass (maskNoise text)).map Candidate.code)
    (hordered.imp_of_mem fun {a b} ha _ hlt => Nat.lt_trans (hlinked ha).start_lt_stop hlt)
  have hgrouped : ∀ c, c ∈ candidatesOf text ∧ c.source = .grouped ↔
      ∃ group ∈ found, Candidate.ofChain group = c := by
    intro c
    rw [← List.mem_map, ← hfound, ← groupedPass, ← filter_grouped, List.mem_filter,
      decide_eq_true_eq]
  refine ⟨_, found, fun most hmost => ?_, fun group => mem_chains_iff, hordered,
    by rw [filter_grouped, groupedPass, hfound]; rfl, hsub, fun group => ?_, ?_⟩
  · refine findAll_groupPattern (Nat.le_trans ?_ hmost)
    exact Nat.le_trans (List.length_filter_le _ _) (length_runsFrom_le _ _ _)
  · rw [hmem, mem_chains_iff]
    refine and_congr_right fun hgroup => ?_
    have hlow : 4 ≤ (chainCode group).length := by
      have := (hlinked (mem_chains_iff.mpr hgroup)).two_mul_length_le
      have := hgroup.many
      omega
    have hothers : (∀ other ∈ found, chainStart other < chainStart group →
          chainCode other ≠ chainCode group) ↔
        ∀ c ∈ candidatesOf text, c.source = .grouped → c.first < chainStart group →
          c.code ≠ chainCode group := by
      constructor
      · intro h c hc hsource hlt
        obtain ⟨other, hother, rfl⟩ := (hgrouped c).mp ⟨hc, hsource⟩
        exact h other hother (Int.ofNat_lt.mp hlt)
      · intro h other hother hlt
        obtain ⟨hc, hsource⟩ := (hgrouped _).mpr ⟨other, hother, rfl⟩
        exact h _ hc hsource (Int.ofNat_lt.mpr hlt)
    rw [not_mem_numericPass_iff, hothers]
    exact ⟨fun h => h.2, fun h => ⟨hlow, h⟩⟩
  · intro group hgroup hnot c hc hsource
    obtain ⟨other, hother, rfl⟩ := (hgrouped c).mp ⟨hc, hsource⟩
    have hne : group ≠ other := fun heq => hnot (heq ▸ hother)
    have hapart := apart_of_ne hordered (mem_chains_iff.mpr hgroup) (hsub.subset hother) hne
    rw [ofChain_first, ofChain_last]
    omega

/-- A piece that touches a letter is of no group, and the last group repeats a code. -/
example :
    (candidatesOf "12-34-56x 78 901, 12-34".toList).map (fun c => (c.source, c.first, c.last)) =
      [(.numeric, 13, 15), (.grouped, 0, 4), (.grouped, 10, 15)] := by decide +kernel

end Candidates

end Passcode
