import Passcode.Proofs.Candidate.Laminar
import Passcode.Proofs.Pattern.Scan

/-!
# Groups of digits — the pattern that finds the chains

Groups of digits are two or more pieces of two to four digits, each parted from the next by one
space or one dash, between two borders of words (`groupPattern`).  A search by backtracking finds
exactly the chains of two chunks or more, from the first digit to the last (`findAll_groupPattern`).

* A piece ends where its stretch of digits does, for neither a separator nor a border stands between
  two digits (`flatMap_piece`).
* From a chunk the repetition goes to the next chunk if the two are linked, and no piece that is not
  a chunk leads to a match (`flatMap_link_of_linked`, `restEnds_of_unlinked`).  By induction on the
  chunks of its chain behind it, what is tried first ends with the chain (`head_restEnds`).
* So where a chain of two chunks or more starts it is matched as a whole (`head_groupPattern_ends`),
  and no match starts outside of these chains (`exists_chain_of_groupPattern_ends`).  That is all a
  search from left to right needs (`scanFrom_of_finds`).
-/

namespace Passcode

open Text Pattern

/-- Two to four digits. -/
def piecePattern : Pattern := .repeated 2 4 (.one isAsciiDigit)

/-- One space or dash, and two to four digits. -/
def linkPattern : Pattern := .seq (.one isSeparator) piecePattern

/-- Pieces of two to four digits, with a space or a dash between two of them, from border to border;
behind the first piece there are one to `most` others. -/
def groupPattern (most : Nat) : Pattern :=
  .seq .border (.seq piecePattern (.seq (.repeated 1 most linkPattern) .border))

variable {scan : Text} {r s : Run} {low most i : Nat}

/-! ### One piece -/

theorem not_separator_of_digit {c : Char} (h : isAsciiDigit c = true) : isSeparator c = false := by
  cases hsep : isSeparator c with
  | false => rfl
  | true =>
    rcases Bool.or_eq_true_iff.mp hsep with hspace | hdash
    · rw [of_decide_eq_true hspace] at h; exact absurd h (by decide)
    · rw [of_decide_eq_true hdash] at h; exact absurd h (by decide)

theorem has_isWord_of_digit (h : has isAsciiDigit scan i = true) : has isWord scan i = true :=
  has_of_imp (fun _ => isWord_of_digit) h

theorem not_has_separator_of_digit (h : has isAsciiDigit scan i = true) :
    has isSeparator scan i = false := by
  obtain ⟨c, hget, hc⟩ := exists_of_has h
  rw [has, hget]
  exact not_separator_of_digit hc

/-- What the group pattern tries from index `i` on, behind its first piece. -/
def restEnds (scan : Text) (low most i : Nat) : List Nat :=
  (again (linkPattern.ends scan) low most i).flatMap (Pattern.border.ends scan)

/-- Without a separator there is no further piece. -/
theorem linkPattern_ends_of_not (h : has isSeparator scan i = false) :
    linkPattern.ends scan i = [] := by
  rw [linkPattern, Pattern.ends, ends_one_of_not h]
  rfl

theorem border_ends_of_not (h : isBorder scan i = false) : Pattern.border.ends scan i = [] :=
  if_neg (Bool.eq_false_iff.mp h)

theorem border_ends_of (h : isBorder scan i = true) : Pattern.border.ends scan i = [i] := if_pos h

theorem restEnds_zero_succ : restEnds scan 0 (most + 1) i =
    (linkPattern.ends scan i).flatMap (restEnds scan 0 most) ++ Pattern.border.ends scan i := by
  rw [restEnds, again, List.flatMap_append, List.flatMap_assoc, List.flatMap_singleton]
  rfl

theorem restEnds_succ_succ : restEnds scan (low + 1) (most + 1) i =
    (linkPattern.ends scan i).flatMap (restEnds scan low most) := by
  rw [restEnds, again, List.flatMap_assoc]
  rfl

/-- Where neither a separator nor a border stands, nothing follows. -/
theorem restEnds_of_stuck (hsep : has isSeparator scan i = false)
    (hborder : isBorder scan i = false) : restEnds scan low most i = [] := by
  have hlink := linkPattern_ends_of_not hsep
  have hend := border_ends_of_not hborder
  cases low with
  | zero =>
    cases most with
    | zero => simp [restEnds, again, hend]
    | succ most => rw [restEnds_zero_succ, hlink, hend]; rfl
  | succ low =>
    cases most with
    | zero => rfl
    | succ most => rw [restEnds_succ_succ, hlink]; rfl

/-- Between two digits nothing follows. -/
theorem restEnds_of_digits (hi : has isAsciiDigit scan i = true)
    (hnext : has isAsciiDigit scan (i + 1) = true) : restEnds scan low most (i + 1) = [] := by
  refine restEnds_of_stuck (not_has_separator_of_digit hnext) ?_
  rw [isBorder, has_isWord_of_digit hi, has_isWord_of_digit hnext]
  rfl

/-- A piece is a whole stretch of digits. -/
theorem flatMap_piece : (piecePattern.ends scan i).flatMap (restEnds scan low most) =
    if 2 ≤ stretch isAsciiDigit scan i ∧ stretch isAsciiDigit scan i ≤ 4
    then restEnds scan low most (i + stretch isAsciiDigit scan i) else [] :=
  flatMap_again_one (fun _ => restEnds_of_digits) 2 4 nofun

/-- A separator is followed by a piece, and that by what is left of the group. -/
theorem flatMap_link_of_separator (h : has isSeparator scan i = true) :
    (linkPattern.ends scan i).flatMap (restEnds scan low most) =
      (piecePattern.ends scan (i + 1)).flatMap (restEnds scan low most) := by
  rw [linkPattern, Pattern.ends, ends_one_of h, List.flatMap_singleton]

/-- A group starts at a border, with a piece. -/
theorem groupPattern_ends : (groupPattern most).ends scan i =
    if isBorder scan i then (piecePattern.ends scan i).flatMap (restEnds scan 1 most) else [] := by
  rw [groupPattern, Pattern.ends]
  cases h : isBorder scan i with
  | false => rw [border_ends_of_not h]; rfl
  | true => rw [border_ends_of h, List.flatMap_singleton]; rfl

/-! ### One chunk -/

theorem all_not_eq (q : Char → Bool) (o : Option Char) : o.all (fun c => !q c) = !o.any q := by
  cases o <;> rfl

/-- A run of digits starts at a border exactly if no word character stands before it. -/
theorem isBorder_start (h : r ∈ runs isAsciiDigit scan) :
    isBorder scan r.start = r.before.all (fun c => !isWord c) := by
  rw [isBorder_of_word (has_isWord_of_digit (has_start_of_mem h)), hasBefore_eq_any h, all_not_eq]

/-- A run of digits stops at a border exactly if no word character stands behind it. -/
theorem isBorder_stop (h : r ∈ runs isAsciiDigit scan) :
    isBorder scan r.stop = !has isWord scan r.stop :=
  isBorder_stop_of_mem (fun _ => isWord_of_digit) h

/-- A chunk is a run of two to four digits with a border on either side. -/
theorem mem_chunks_iff : r ∈ chunks scan ↔ r ∈ runs isAsciiDigit scan ∧ 2 ≤ r.body.length ∧
    r.body.length ≤ 4 ∧ isBorder scan r.start = true ∧ isBorder scan r.stop = true := by
  rw [chunks, List.mem_filter]
  refine and_congr_right fun h => ?_
  have hafter : r.after.all (fun c => !isWord c) = !has isWord scan r.stop := by
    rw [all_not_eq, has, Run.after_of_mem h]
  rw [isBorder_start h, isBorder_stop h, Run.isolatedFrom, hafter]
  simp only [Bool.and_eq_true, decide_eq_true_eq, and_assoc]

theorem not_isWord_of_separator {c : Char} (h : isSeparator c = true) : isWord c = false := by
  rcases Bool.or_eq_true_iff.mp h with hspace | hdash
  · rw [of_decide_eq_true hspace]; decide
  · rw [of_decide_eq_true hdash]; decide

theorem not_has_isWord_of_separator (h : has isSeparator scan i = true) :
    has isWord scan i = false := by
  obtain ⟨c, hget, hc⟩ := exists_of_has h
  rw [has, hget]
  exact not_isWord_of_separator hc

/-- Behind a linked run there is a separator. -/
theorem has_separator_of_linked (hr : r ∈ runs isAsciiDigit scan) (hlink : r.linkedTo s = true) :
    has isSeparator scan r.stop = true := by
  rw [has, ← Run.after_of_mem hr]
  rcases (Run.linkedTo_iff.mp hlink).1 with h | h <;> rw [h] <;> rfl

/-- Runs with one separator between them are linked. -/
theorem linkedTo_of_separator (hr : r ∈ runs isAsciiDigit scan)
    (hsep : has isSeparator scan r.stop = true) (hstart : s.start = r.stop + 1) :
    r.linkedTo s = true := by
  obtain ⟨c, hget, hc⟩ := exists_of_has hsep
  refine Run.linkedTo_iff.mpr ⟨?_, hstart⟩
  rw [Run.after_of_mem hr, hget]
  rcases Bool.or_eq_true_iff.mp hc with h | h
  · exact .inl (congrArg some (of_decide_eq_true h))
  · exact .inr (congrArg some (of_decide_eq_true h))

/-- A repetition goes on to the next chunk. -/
theorem flatMap_link_of_linked (hr : r ∈ chunks scan) (hs : s ∈ chunks scan)
    (hlink : r.linkedTo s = true) :
    (linkPattern.ends scan r.stop).flatMap (restEnds scan low most) =
      restEnds scan low most s.stop := by
  obtain ⟨hrun, -⟩ := mem_chunks_iff.mp hr
  obtain ⟨hrun', hlow, hhigh, -⟩ := mem_chunks_iff.mp hs
  rw [flatMap_link_of_separator (has_separator_of_linked hrun hlink),
    ← (Run.linkedTo_iff.mp hlink).2, flatMap_piece, stretch_of_mem hrun', if_pos ⟨hlow, hhigh⟩,
    Run.stop]

/-- Behind a separator nothing but a chunk leads to a match. -/
theorem exists_linked_of_flatMap_link (hr : r ∈ runs isAsciiDigit scan)
    (h : (linkPattern.ends scan r.stop).flatMap (restEnds scan 0 most) ≠ []) :
    ∃ s ∈ chunks scan, r.linkedTo s = true := by
  cases hsep : has isSeparator scan r.stop with
  | false => rw [linkPattern_ends_of_not hsep] at h; exact absurd rfl h
  | true =>
    rw [flatMap_link_of_separator hsep, flatMap_piece] at h
    split at h
    · rename_i hlength
      have hnot : has isAsciiDigit scan r.stop = false := by
        cases hdigit : has isAsciiDigit scan r.stop with
        | false => rfl
        | true => rw [not_has_separator_of_digit hdigit] at hsep; cases hsep
      obtain ⟨s, hs, hstart, hbody⟩ := exists_run
        (has_of_stretch_pos (Nat.lt_of_lt_of_le Nat.zero_lt_two hlength.1))
        fun j hj => by rw [Nat.add_right_cancel hj]; exact hnot
      rw [← hbody] at h hlength
      refine ⟨s, mem_chunks_iff.mpr ⟨hs, hlength.1, hlength.2, ?_, ?_⟩,
        linkedTo_of_separator hr hsep hstart⟩
      · -- Before it stands the separator.
        rw [isBorder_start hs, Run.before_of_mem hs hstart.symm, all_not_eq, ← has,
          not_has_isWord_of_separator hsep]
        rfl
      · -- Behind it stands no word character, for there both a separator and a border would fail.
        cases hborder : isBorder scan s.stop with
        | true => rfl
        | false =>
          rw [← hstart, ← Run.stop] at h
          refine absurd (restEnds_of_stuck ?_ hborder) h
          rw [isBorder_stop hs, Bool.not_eq_false'] at hborder
          cases hsep' : has isSeparator scan s.stop with
          | false => rfl
          | true => rw [not_has_isWord_of_separator hsep'] at hborder; cases hborder
    · exact absurd rfl h

/-! ### The chunks of a text -/

section Chunks

variable {ss chain : List Run}

/-- Behind a chunk that is not linked to the next one nothing is left but the border. -/
theorem restEnds_of_unlinked (hr : r ∈ chunks scan)
    (hlink : ∀ s ∈ chunks scan, r.linkedTo s = false) : restEnds scan 0 most r.stop = [r.stop] := by
  obtain ⟨hrun, -, -, -, hborder⟩ := mem_chunks_iff.mp hr
  cases most with
  | zero => rw [restEnds, again, List.flatMap_singleton, border_ends_of hborder]
  | succ most =>
    have hnothing : (linkPattern.ends scan r.stop).flatMap (restEnds scan 0 most) = [] := by
      by_contra hsome
      obtain ⟨s, hs, hlinked⟩ := exists_linked_of_flatMap_link hrun hsome
      rw [hlink s hs] at hlinked
      cases hlinked
    rw [restEnds_zero_succ, hnothing, border_ends_of hborder, List.nil_append]

/-- Of what is tried behind a chunk the first ends with its chain. -/
theorem head_restEnds (hlinked : Linked scan (r :: ss))
    (hlast : ∀ x ∈ (r :: ss).getLast?, ∀ s ∈ chunks scan, x.linkedTo s = false)
    (hmost : ss.length ≤ most) :
    (restEnds scan 0 most r.stop).head? = some (chainStop (r :: ss)) := by
  induction ss generalizing r most with
  | nil =>
    have hr := hlinked.mem_chunks r List.mem_cons_self
    rw [restEnds_of_unlinked hr (hlast r rfl)]
    rfl
  | cons s ss ih =>
    cases hlinked with
    | cons hr hlink hrest =>
      have hs := hrest.mem_chunks s List.mem_cons_self
      cases most with
      | zero => exact absurd hmost (Nat.not_succ_le_zero _)
      | succ most =>
        rw [restEnds_zero_succ, flatMap_link_of_linked hr hs hlink, List.head?_append,
          ih hrest (fun x hx => hlast x (by rw [List.getLast?_cons_cons]; exact hx))
            (Nat.le_of_succ_le_succ hmost)]
        rfl

/-- A match starts at a chunk. -/
theorem exists_of_groupPattern_ends (h : (groupPattern most).ends scan i ≠ []) :
    ∃ r ∈ chunks scan, r.start = i ∧ ∃ s ∈ chunks scan, r.linkedTo s = true := by
  rw [groupPattern_ends] at h
  split at h
  · rename_i hborder
    rw [flatMap_piece] at h
    split at h
    · rename_i hlength
      have hdigit := has_of_stretch_pos (Nat.lt_of_lt_of_le Nat.zero_lt_two hlength.1)
      obtain ⟨r, hr, hstart, hbody⟩ := exists_run hdigit fun j hj => by
        rw [← hj, isBorder, hj, has_isWord_of_digit hdigit, Bool.bne_true,
          Bool.not_eq_true'] at hborder
        cases hprev : has isAsciiDigit scan j with
        | false => rfl
        | true => rw [has_isWord_of_digit hprev] at hborder; cases hborder
      rw [← hbody, ← hstart, ← Run.stop] at h
      rw [← hbody] at hlength
      cases most with
      | zero => exact absurd rfl h
      | succ most =>
        rw [restEnds_succ_succ] at h
        obtain ⟨s, hs, hlink⟩ := exists_linked_of_flatMap_link hr h
        refine ⟨r, mem_chunks_iff.mpr ⟨hr, hlength.1, hlength.2, hstart ▸ hborder, ?_⟩, hstart,
          s, hs, hlink⟩
        rw [isBorder_stop hr, not_has_isWord_of_separator (has_separator_of_linked hr hlink)]
        rfl
    · exact absurd rfl h
  · exact absurd rfl h

/-- Where a chain of two chunks or more starts the whole chain is matched. -/
theorem head_groupPattern_ends (hmem : chain ∈ chains (chunks scan)) (hmany : 2 ≤ chain.length)
    (hmost : chain.length ≤ most) :
    ((groupPattern most).ends scan (chainStart chain)).head? = some (chainStop chain) := by
  have hlinked := linked_of_mem_chains (fun _ hr => hr) hmem
  have hlast := not_linkedTo_of_last hmem
  cases hlinked with
  | single => exact absurd hmany (Nat.not_succ_le_self 1)
  | cons hr hlink hrest =>
    rename_i r s ss
    have hstart : chainStart (r :: s :: ss) = r.start := rfl
    have hs := hrest.mem_chunks s List.mem_cons_self
    obtain ⟨hrun, hlow, hhigh, hborder, -⟩ := mem_chunks_iff.mp hr
    rw [hstart, groupPattern_ends, if_pos hborder, flatMap_piece, stretch_of_mem hrun,
      if_pos ⟨hlow, hhigh⟩, ← Run.stop]
    cases most with
    | zero => exact absurd hmost (Nat.not_succ_le_zero _)
    | succ most =>
      rw [restEnds_succ_succ, flatMap_link_of_linked hr hs hlink,
        head_restEnds hrest (fun x hx => hlast x (by rw [List.getLast?_cons_cons]; exact hx))
          (Nat.le_of_succ_le (Nat.le_of_succ_le_succ hmost))]
      rfl

/-- A match starts within a chain of two chunks or more. -/
theorem exists_chain_of_groupPattern_ends (h : (groupPattern most).ends scan i ≠ []) :
    ∃ chain ∈ chains (chunks scan), 2 ≤ chain.length ∧ chainStart chain ≤ i ∧
      i < chainStop chain := by
  obtain ⟨r, hr, rfl, s, hs, hlink⟩ := exists_of_groupPattern_ends h
  obtain ⟨chain, hmem, hin⟩ : ∃ chain ∈ chains (chunks scan), r ∈ chain := by
    rw [chains_eq_splitBy, ← List.mem_flatten, List.flatten_splitBy]
    exact hr
  have hwithin := (linked_of_mem_chains (fun _ hr => hr) hmem).start_le_stop_of_mem hin
  have hspan := Run.start_lt_stop_of_mem (mem_chunks_iff.mp hr).1
  refine ⟨chain, hmem, Nat.not_lt.mp fun hfew => ?_, hwithin.1,
    Nat.lt_of_lt_of_le hspan hwithin.2⟩
  -- A chain of one chunk ends with it, and this one goes on.
  obtain rfl : chain = [r] := by
    match chain, hin, hfew with
    | [x], hin, _ => rw [List.mem_singleton.mp hin]
  rw [not_linkedTo_of_last hmem r rfl s hs] at hlink
  cases hlink

end Chunks

/-! ### The whole search -/

/-- The chains of two chunks or more, each from its first digit to behind its last one. -/
def spansOf (all : List (List Run)) : List (Nat × Nat) :=
  (all.filter (fun chain => 2 ≤ chain.length)).map
    (fun chain => (chainStart chain, chainStop chain))

/-- **The pattern of the groups finds the chains**: the matches of the group pattern are the chains
of two chunks or more, from left to right. -/
theorem findAll_groupPattern (hmost : (chunks scan).length ≤ most) :
    findAll scan (groupPattern most) = spansOf (chains (chunks scan)) := by
  have hspans : ∀ {span : Nat × Nat}, span ∈ spansOf (chains (chunks scan)) ↔
      ∃ chain ∈ chains (chunks scan), 2 ≤ chain.length ∧
        (chainStart chain, chainStop chain) = span := by
    intro span
    simp only [spansOf, List.mem_map, List.mem_filter, decide_eq_true_eq, and_assoc]
  rw [findAll_eq_scanFrom]
  refine scanFrom_of_finds (Nat.zero_add _) {
    ordered := List.pairwise_map.mpr (((chains_pairwise scan).filter _).imp Nat.le_of_lt)
    bounds := fun span hspan => ?_
    matched := fun span hspan => ?_
    outside := fun i _ hout => ?_ }
  · obtain ⟨chain, hmem, -, rfl⟩ := hspans.mp hspan
    have hlinked := linked_of_mem_chains (fun _ hr => hr) hmem
    exact ⟨Nat.zero_le _, hlinked.start_lt_stop, hlinked.stop_le_length⟩
  · obtain ⟨chain, hmem, hmany, rfl⟩ := hspans.mp hspan
    obtain ⟨pre, post, hsplit, -⟩ := exists_split_of_mem_chains hmem
    refine head_groupPattern_ends hmem hmany ?_
    rw [hsplit, List.length_append, List.length_append] at hmost
    omega
  · by_contra hsome
    obtain ⟨chain, hmem, hmany, hstart, hstop⟩ := exists_chain_of_groupPattern_ends hsome
    rcases hout _ (hspans.mpr ⟨chain, hmem, hmany, rfl⟩) with hlt | hle
    · exact Nat.not_lt_of_le hstart hlt
    · exact Nat.not_le_of_lt hstop hle

end Passcode
