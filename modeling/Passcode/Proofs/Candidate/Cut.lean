import Passcode.Proofs.Candidate.Maximal
import Passcode.Proofs.Noise.Cut

/-!
# Cuts — the candidates of two texts that begin with the same words

Where two texts agree up to an index, the candidates that lie far enough before it are candidates of
both.

* A run of digits is decided by the word in which it ends (`mem_candidatesOf_of_numeric`).
* A token may lose its end to the phrase, which goes over one space, so it is decided by the next
  word too (`mem_candidatesOf_of_alnum`).
* A chain goes on if a chunk stands behind the next separator, and that chunk is again decided by
  its word and the next one (`mem_chains_of_agreeTo`, `exists_code_of_grouped`).  The code of a
  group may be that of an earlier candidate in one of the texts, so it is the code that both have.
-/

namespace Passcode

open Text

/-! ### Chunks and chains -/

/-- The chunks on both sides of a cut before a space. -/
theorem chunks_append (s : Text) {t : Text} (ht : StartsApart t) :
    ∃ far, chunks (s ++ t) = (chunks s).map (Run.closeAt s.length t.head?) ++ far ∧
      ∀ r ∈ far, s.length < r.start := by
  have hdigit := ht.head_eq_false (p := isAsciiDigit) (by decide)
  have hword := ht.head_eq_false (p := isWord) (by decide)
  have hruns := runsFrom_append hdigit s none 0
  rw [Nat.zero_add] at hruns
  refine ⟨(runsFrom isAsciiDigit (s.getLast?.or none) s.length t).filter
    (fun r => 2 ≤ r.body.length && r.body.length ≤ 4 && r.isolatedFrom isWord), ?_, fun r hr => ?_⟩
  · rw [chunks, runs, hruns, List.filter_append, List.filter_map, chunks]
    congr 2
    refine List.filter_congr fun r hr => ?_
    -- Neither a space nor the end of the text is a word character.
    have hafter : (r.closeAt s.length t.head?).after.all (fun c => !isWord c) =
        r.after.all (fun c => !isWord c) := by
      by_cases hstop : r.stop = s.length
      · have hnone : r.after = none := by
          rw [Run.after_of_mem hr, hstop]; exact List.getElem?_eq_none (Nat.le_refl _)
        rw [Run.closeAt_of_eq hstop, hnone]
        cases hhead : t.head? with
        | none => rfl
        | some c => rw [Option.all_some, hword c hhead]; rfl
      · rw [Run.closeAt_of_ne hstop]
    rw [Function.comp_apply, Run.closeAt_body, Run.isolatedFrom, Run.isolatedFrom, hafter,
      Run.closeAt_before]
  · exact lt_start_of_mem hdigit (List.mem_filter.mp hr).1

theorem Run.linkedTo_closeAt (r s : Run) (n : Nat) (c : Option Char) :
    r.linkedTo (s.closeAt n c) = r.linkedTo s := by
  rw [linkedTo, linkedTo, closeAt_start]

/-- What stands in front and ends before the cut is of the first part, which goes on with what is
left of it. -/
theorem exists_later {n : Nat} {d : Option Char} {near far front post : List Run}
    (h : near.map (Run.closeAt n d) ++ far = front ++ post) (hfront : ∀ r ∈ front, r.stop < n)
    (hfar : ∀ r ∈ far, n < r.start) :
    ∃ later, near = front ++ later ∧ post = later.map (Run.closeAt n d) ++ far := by
  induction front generalizing near with
  | nil => exact ⟨near, rfl, h.symm⟩
  | cons r front ih =>
    have hstop := hfront r List.mem_cons_self
    cases near with
    | nil =>
      rw [List.map_nil, List.nil_append] at h
      have hlt := hfar r (h ▸ List.mem_cons_self)
      have hrun : r.start ≤ r.stop := Nat.le_add_right _ _
      omega
    | cons x near =>
      obtain ⟨hx, hrest⟩ := List.cons.inj h
      have hsame : x = r := by
        rw [← hx, Run.closeAt_stop] at hstop
        rw [← hx, Run.closeAt_of_ne (Nat.ne_of_lt hstop)]
      obtain ⟨later, hnear, hpost⟩ := ih hrest fun r hr => hfront r (List.mem_cons_of_mem _ hr)
      exact ⟨later, by rw [hsame, hnear, List.cons_append], hpost⟩

theorem map_closeAt_eq_self {n : Nat} {d : Option Char} {front : List Run}
    (h : ∀ r ∈ front, r.stop < n) : front.map (Run.closeAt n d) = front := by
  rw [List.map_congr_left fun r hr => Run.closeAt_of_ne (Nat.ne_of_lt (h r hr))]
  exact List.map_id' front

/-- **A chain that ends before the index is a chain in both texts.** -/
theorem mem_chains_of_agreeTo {s t : Text} {n : Nat} (h : AgreeTo n s t) (hn : n ≤ s.length)
    {chain : List Run} (hchain : chain ∈ chains (chunks s)) (hstop : chainStop chain < n) :
    chain ∈ chains (chunks t) := by
  obtain ⟨far, hs, hfar⟩ := chunks_append (s.take n) h.left
  obtain ⟨far', ht, hfar'⟩ := chunks_append (s.take n) h.right
  rw [List.take_append_drop] at hs
  rw [h.take_eq, List.take_append_drop, ← h.take_eq] at ht
  have hlength : (s.take n).length = n := by rw [List.length_take, Nat.min_eq_left hn]
  rw [hlength] at hs ht hfar hfar'
  obtain ⟨pre, post, hsplit, hne, hlinked, hpre, hpost⟩ := exists_split_of_mem_chains hchain
  have hbound := stop_le_chainStop hsplit hne
  have hfront : ∀ r ∈ pre ++ chain, r.stop < n := fun r hr => Nat.lt_of_le_of_lt (hbound r hr) hstop
  -- The chain and the chunks before it are of the common part, so they begin the other text too.
  obtain ⟨later, hnear, rfl⟩ := exists_later (hs.symm.trans hsplit) hfront hfar
  rw [hnear, List.map_append, map_closeAt_eq_self hfront, List.append_assoc] at ht
  rw [ht]
  refine mem_chains_append hne hlinked hpre fun r hr x hx => ?_
  cases later with
  | nil =>
    -- Nothing is left before the cut, and the separator behind the chain cannot reach over it.
    have hlt := hfar' x (List.mem_of_head? hx)
    refine Bool.eq_false_iff.mpr fun hlink => ?_
    have hnext := (Run.linkedTo_iff.mp hlink).2
    have hr' := hbound r (List.mem_append_right _ (List.mem_of_getLast? hr))
    omega
  | cons y later =>
    cases hx
    rw [Run.linkedTo_closeAt, ← Run.linkedTo_closeAt r y n (s.drop n).head?]
    exact hpost r hr _ rfl

/-! ### Candidates -/

theorem ofRun_congr {r r' : Run} (hstart : r'.start = r.start) (hbody : r'.body = r.body)
    (source : Source) (numeric : Bool) :
    Candidate.ofRun source numeric r' = Candidate.ofRun source numeric r := by
  simp only [Candidate.ofRun, Run.stop, hstart, hbody]

variable {s t : Text} {c : Candidate}

/-- A run of digits that ends where the texts agree is a candidate of both. -/
theorem mem_candidatesOf_of_numeric {n : Nat} (h : AgreeTo n s t) (hc : c ∈ candidatesOf s)
    (hsource : c.source = .numeric) (hlast : c.last < n) : c ∈ candidatesOf t := by
  cases foundIn_of_mem_candidatesOf hc with
  | grouped => cases hsource
  | alnum => cases hsource
  | @numeric r hr hlow hhigh =>
    simp only [Candidate.ofRun] at hlast
    -- The pass over the phrase takes no digit, so it takes no part in this.
    obtain ⟨r₁, hr₁, hstart₁, hbody₁⟩ := exists_run_of_same_filter
      (by rw [length_maskNoise, length_maskPieces]) (filter_digit_maskNoise s) hr
    obtain ⟨r₂, hr₂, hstart₂, hbody₂⟩ := (agreeTo_maskPieces h).exists_run (by decide) hr₁
      (by rw [Run.stop, hstart₁, hbody₁, ← Run.stop]; omega)
    obtain ⟨r₃, hr₃, hstart₃, hbody₃⟩ := exists_run_of_same_filter
      (by rw [length_maskNoise, length_maskPieces]) (fun i => (filter_digit_maskNoise t i).symm) hr₂
    have hbody : r₃.body = r.body := hbody₃.trans (hbody₂.trans hbody₁)
    have hmem : Candidate.ofRun .numeric true r₃ ∈ numericPass (maskNoise t) := by
      refine List.mem_map_of_mem (List.mem_filter.mpr ⟨hr₃, ?_⟩)
      simp only [hbody, hlow, hhigh, decide_true, Bool.and_self]
    rw [ofRun_congr (hstart₃.trans (hstart₂.trans hstart₁)) hbody] at hmem
    exact List.mem_append_left _ (List.mem_append_left _ hmem)

/-- A token that ends before a space is a candidate of both texts if they agree up to the next
one. -/
theorem mem_candidatesOf_of_alnum {m n : Nat} (h : AgreeTo n s t) (hmn : m < n)
    (hspace : s[m]? = some ' ') (hc : c ∈ candidatesOf s) (hsource : c.source = .alnum)
    (hlast : c.last < m) : c ∈ candidatesOf t := by
  cases foundIn_of_mem_candidatesOf hc with
  | grouped => cases hsource
  | numeric => cases hsource
  | @alnum r hr htoken =>
    simp only [Candidate.ofRun] at hlast
    obtain ⟨r', hr', hstart, hbody⟩ :=
      (agreeTo_maskNoise h hmn hspace).exists_run (by decide) hr (by omega)
    have hmem : Candidate.ofRun .alnum false r' ∈ alnumPass (maskNoise t) := by
      refine List.mem_map_of_mem (List.mem_filter.mpr ⟨hr', ?_⟩)
      rw [hbody]; exact htoken
    rw [ofRun_congr hstart hbody] at hmem
    exact List.mem_append_right _ hmem

/-- A group comes from a chain of at least two chunks with four to eight digits. -/
theorem exists_chain_of_grouped (hc : c ∈ candidatesOf s) (hsource : c.source = .grouped) :
    ∃ chain ∈ chains (chunks (maskNoise s)), 2 ≤ chain.length ∧ 4 ≤ (chainCode chain).length ∧
      (chainCode chain).length ≤ 8 ∧ c = .ofChain chain := by
  rcases List.mem_append.mp hc with hc | hc
  · rcases List.mem_append.mp hc with hc | hc
    · obtain ⟨r, -, rfl⟩ := List.mem_map.mp hc
      cases hsource
    · obtain ⟨chain, hchain, hlow, hhigh, rfl⟩ := exists_of_mem_chainCandidates hc
      obtain ⟨hmem, hmany⟩ := List.mem_filter.mp hchain
      exact ⟨chain, hmem, of_decide_eq_true hmany, hlow, hhigh, rfl⟩
  · obtain ⟨r, -, rfl⟩ := List.mem_map.mp hc
    cases hsource

/-- Each chain of at least two chunks with four to eight digits has its code among those of the
candidates. -/
theorem exists_code_of_chain {chain : List Run} (hchain : chain ∈ chains (chunks (maskNoise t)))
    (hmany : 2 ≤ chain.length) (hlow : 4 ≤ (chainCode chain).length)
    (hhigh : (chainCode chain).length ≤ 8) :
    ∃ c ∈ candidatesOf t, c.code = chainCode chain := by
  have hmem : chain ∈ (chains (chunks (maskNoise t))).filter (fun chain => 2 ≤ chain.length) :=
    List.mem_filter.mpr ⟨hchain, decide_eq_true hmany⟩
  rcases code_of_mem_chains hmem hlow hhigh with hseen | ⟨c, hc, hcode⟩
  · obtain ⟨c, hc, hcode⟩ := List.mem_map.mp hseen
    exact ⟨c, List.mem_append_left _ (List.mem_append_left _ hc), hcode⟩
  · exact ⟨c, List.mem_append_left _ (List.mem_append_right _ hc), hcode⟩

/-- A group that ends more than one character before a space has its code in both texts if they
agree up to the next one. -/
theorem exists_code_of_grouped {m n : Nat} (h : AgreeTo n s t) (hmn : m < n)
    (hspace : s[m]? = some ' ') (hc : c ∈ candidatesOf s) (hsource : c.source = .grouped)
    (hlast : c.last + 1 < m) : ∃ c' ∈ candidatesOf t, c'.code = c.code := by
  obtain ⟨chain, hchain, hmany, hlow, hhigh, rfl⟩ := exists_chain_of_grouped hc hsource
  rw [ofChain_last] at hlast
  have hm : m ≤ (maskNoise s).length := by
    rw [length_maskNoise]
    exact Nat.le_of_lt (List.getElem?_eq_some_iff.mp hspace).1
  exact exists_code_of_chain
    (mem_chains_of_agreeTo (agreeTo_maskNoise h hmn hspace) hm hchain (by omega)) hmany hlow hhigh

end Passcode
