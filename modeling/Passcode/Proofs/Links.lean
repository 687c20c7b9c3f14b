import Passcode.Proofs.Candidate.Spans
import Passcode.Proofs.Text.Letters

/-!
# Links — where no candidate is offered, and where one is again

A link starts where one of the three markers stands, in any case, with a character behind it that is
not blank (`LinkAt`), and one would have it reach to the end of the stretch of such characters
(`solidEnd`).  Masking takes at most `longestTail` characters behind the marker, and it takes what a
link covers before it looks for the next one.

* `exists_masked_link`: wherever a link starts, a link is masked that starts there or earlier in the
  same stretch, up to the end of the stretch or of what masking takes, whichever comes first.
* `not_meets_of_blank`: no candidate reaches into two neighbouring blanks, for a blank within a span
  parts two chunks and stands alone.

So no candidate reaches into what is masked (`not_meets_masked_link`), and none into a link at all
where the stretch is not too long.  Behind what masking takes digits are a candidate again
(`digits_behind_long_link`).
-/

namespace Passcode

open Noise

/-! ### Stretches that are not blank -/

namespace Text

/-- The index behind the stretch of characters that are not blank from index `i` on. -/
def solidEnd (t : Text) (i : Nat) : Nat := i + ((t.drop i).takeWhile (fun c => !isBlank c)).length

/-- A character that is not blank stands at the index. -/
def SolidAt (t : Text) (i : Nat) : Prop := ∃ c, t[i]? = some c ∧ isBlank c = false

variable {t : Text} {i j : Nat}

theorem le_solidEnd (t : Text) (i : Nat) : i ≤ solidEnd t i := Nat.le_add_right _ _

theorem SolidAt.lt_length (h : SolidAt t i) : i < t.length := by
  obtain ⟨c, hc, -⟩ := h
  exact (List.getElem?_eq_some_iff.mp hc).1

theorem SolidAt.ne_space (h : SolidAt t i) : t[i]? ≠ some ' ' := by
  obtain ⟨c, hc, hsolid⟩ := h
  intro hspace
  rw [hc] at hspace
  cases hspace
  exact absurd hsolid (by decide)

/-- From a solid character on, what is solid ends where it does from the next one on. -/
theorem SolidAt.solidEnd_eq (h : SolidAt t i) : solidEnd t i = solidEnd t (i + 1) := by
  obtain ⟨c, hc, hsolid⟩ := h
  obtain ⟨hi, hget⟩ := List.getElem?_eq_some_iff.mp hc
  rw [solidEnd, List.drop_eq_getElem_cons hi,
    List.takeWhile_cons_of_pos (by rw [hget, hsolid]; rfl), List.length_cons, solidEnd]
  omega

/-- A stretch has one end, wherever in it one starts. -/
theorem solidEnd_eq_of_solid (hij : i ≤ j) (h : ∀ x, i ≤ x → x < j → SolidAt t x) :
    solidEnd t i = solidEnd t j := by
  obtain ⟨n, rfl⟩ := Nat.exists_eq_add_of_le hij
  induction n with
  | zero => rfl
  | succ n ih =>
    rw [ih (Nat.le_add_right _ _) (fun x hx hlt => h x hx (by omega))]
    exact (h (i + n) (by omega) (by omega)).solidEnd_eq

/-- Every character up to the end of what is solid is solid. -/
theorem solidAt_of_lt_solidEnd (hij : i ≤ j) (h : j < solidEnd t i) : SolidAt t j := by
  obtain ⟨n, rfl⟩ := Nat.exists_eq_add_of_le hij
  have hn : n < ((t.drop i).takeWhile (fun c => !isBlank c)).length := by
    rw [solidEnd] at h; omega
  have hget := (List.takeWhile_prefix (fun c => !isBlank c) (l := t.drop i)).getElem hn
  have hmem := List.all_eq_true.mp List.all_takeWhile _ (List.getElem_mem hn)
  refine ⟨_, ?_, by simpa using hmem⟩
  rw [← List.getElem?_drop, List.getElem?_eq_some_iff]
  exact ⟨_, hget.symm⟩

theorem solidEnd_le_length (hi : i ≤ t.length) : solidEnd t i ≤ t.length := by
  have hle := (List.takeWhile_prefix (fun c => !isBlank c) (l := t.drop i)).length_le
  rw [List.length_drop] at hle
  rw [solidEnd]
  omega

/-- What is left of a stretch is cut at the greatest length. -/
theorem add_solidLength (most : Nat) (t : Text) (i : Nat) :
    i + solidLength most (t.drop i) = min (solidEnd t i) (i + most) := by
  rw [solidLength, ← List.take_takeWhile, List.length_take, solidEnd]
  omega

end Text

open Text

/-! ### Where links start -/

/-- A link starts at the index with one of the markers, in any case, and at least one character that
is not blank. -/
structure LinkAt (t : Text) (i : Nat) (marker : Text) : Prop where
  mem : marker ∈ linkStarts
  starts : startsLike marker (t.drop i) = true
  solid : SolidAt t (i + marker.length)

/-- Where a link ends for masking: with its stretch, or at the greatest length. -/
def maskedEnd (t : Text) (i : Nat) (marker : Text) : Nat :=
  min (solidEnd t i) (i + marker.length + longestTail)

/-- A text starts with one marker at most. -/
theorem marker_unique {marker marker' t : Text} (hmem : marker ∈ linkStarts)
    (hmem' : marker' ∈ linkStarts) (h : startsLike marker t = true)
    (h' : startsLike marker' t = true) : marker = marker' := by
  have hplain : ∀ m ∈ linkStarts, m.contains '\u017F' = false := by decide
  have hlong : ∀ {m : Text} {p : Char}, m ∈ linkStarts → p ∈ m → p ≠ '\u017F' := by
    rintro m p hm hp rfl
    have hcontains := hplain m hm
    rw [List.contains_iff_mem.mpr hp] at hcontains
    cases hcontains
  have hdiffer : ∀ m ∈ linkStarts, ∀ m' ∈ linkStarts,
      m = m' ∨ ∃ i ∈ [0, 4], m[i]?.any (fun p => m'[i]?.any (fun q => p != q)) = true := by decide
  rcases hdiffer _ hmem _ hmem' with heq | ⟨i, -, hany⟩
  · exact heq
  · obtain ⟨p, hp, hany⟩ := (Option.any_eq_true _ _).mp hany
    obtain ⟨q, hq, hne⟩ := (Option.any_eq_true _ _).mp hany
    obtain ⟨hi, hget⟩ := List.getElem?_eq_some_iff.mp hp
    obtain ⟨hi', hget'⟩ := List.getElem?_eq_some_iff.mp hq
    obtain ⟨c, hc, hsame⟩ := startsLike_getElem? h hi
    obtain ⟨c', hc', hsame'⟩ := startsLike_getElem? h' hi'
    rw [hc] at hc'
    cases hc'
    rw [hget] at hsame
    rw [hget'] at hsame'
    exact absurd (letter_unique (hlong hmem (List.mem_of_getElem? hp))
      (hlong hmem' (List.mem_of_getElem? hq)) hsame hsame') (bne_iff_ne.mp hne)

namespace LinkAt

variable {t : Text} {i : Nat} {marker : Text}

/-- The characters of a marker are solid. -/
theorem solidAt_marker (h : LinkAt t i marker) {x : Nat} (hx : i ≤ x)
    (hlt : x < i + marker.length) : SolidAt t x := by
  have hall : ∀ m ∈ linkStarts, m.any isBlank = false := by decide
  obtain ⟨c, hc, hsame⟩ := startsLike_getElem? h.starts (i := x - i) (by omega)
  rw [List.getElem?_drop, Nat.add_sub_cancel' hx] at hc
  refine ⟨c, hc, Bool.eq_false_iff.mpr fun hblank => ?_⟩
  have hmarker := List.any_eq_false.mp (hall _ h.mem) _
    (List.getElem_mem (by omega : x - i < marker.length))
  exact hmarker (eq_of_sameLetter_of_blank hblank hsame ▸ hblank)

/-- The stretch goes on behind the marker. -/
theorem solidEnd_eq (h : LinkAt t i marker) : solidEnd t i = solidEnd t (i + marker.length) :=
  solidEnd_eq_of_solid (Nat.le_add_right _ _) fun _ hx hlt => h.solidAt_marker hx hlt

/-- A link goes on behind its marker. -/
theorem lt_solidEnd (h : LinkAt t i marker) : i + marker.length < solidEnd t i := by
  rw [h.solidEnd_eq, h.solid.solidEnd_eq]
  exact le_solidEnd t _

/-- So what is masked behind the marker is not empty. -/
theorem solidLength_pos (h : LinkAt t i marker) :
    0 < solidLength longestTail ((t.drop i).drop marker.length) := by
  have hend := add_solidLength longestTail t (i + marker.length)
  have hlt := h.lt_solidEnd
  rw [h.solidEnd_eq] at hlt
  rw [List.drop_drop]
  have htail : 0 < longestTail := by decide
  omega

/-- The length of the link that starts there, as masking takes it. -/
theorem add_linkLength (h : LinkAt t i marker) :
    i + linkLength (t.drop i) = maskedEnd t i marker := by
  have hfind : linkStarts.find? (fun start => startsLike start (t.drop i)) = some marker := by
    cases hfind : linkStarts.find? (fun start => startsLike start (t.drop i)) with
    | none => exact absurd h.starts (by simpa using List.find?_eq_none.mp hfind marker h.mem)
    | some start =>
      rw [marker_unique h.mem (List.mem_of_find?_eq_some hfind) h.starts
        (List.find?_some (p := fun start => startsLike start (t.drop i)) hfind)]
  have hpos := h.solidLength_pos
  have hend := add_solidLength longestTail t (i + marker.length)
  rw [linkLength, hfind]
  dsimp only
  rw [if_neg (by omega), maskedEnd, h.solidEnd_eq, ← hend, List.drop_drop]
  omega

end LinkAt

/-- Where masking finds a link, one starts. -/
theorem exists_linkAt {t : Text} {i : Nat} (h : linkLength (t.drop i) ≠ 0) :
    ∃ marker, LinkAt t i marker := by
  unfold linkLength at h
  split at h
  · rename_i marker hfind
    refine ⟨marker, List.mem_of_find?_eq_some hfind,
      List.find?_some (p := fun start => startsLike start (t.drop i)) hfind, ?_⟩
    have hpos : solidLength longestTail ((t.drop i).drop marker.length) ≠ 0 := fun h0 => by
      dsimp only at h
      rw [h0] at h
      exact h rfl
    have hend := add_solidLength longestTail t (i + marker.length)
    rw [List.drop_drop] at hpos
    exact solidAt_of_lt_solidEnd (Nat.le_refl _) (by omega)
  · exact absurd rfl h

/-! ### What masking takes -/

/-- Where a piece of noise starts the character is blanked, be it as the first of that piece or as
one of an earlier piece. -/
theorem blankOut_of_piece {piece : Option Char → Text → Nat} (before : Option Char) (left : Nat)
    (t : Text) {i : Nat} (h : piece (charBefore before t i) (t.drop i) ≠ 0) (hi : i < t.length) :
    (blankOut piece before left t)[i]? = some ' ' := by
  induction t generalizing before left i with
  | nil => exact absurd hi (Nat.not_lt_zero i)
  | cons c cs ih =>
    have later : ∀ {j left' : Nat} {e : Char}, i = j + 1 →
        blankOut piece before left (c :: cs) = e :: blankOut piece (some c) left' cs →
        (blankOut piece before left (c :: cs))[i]? = some ' ' := by
      rintro j left' e rfl hout
      rw [charBefore_cons_succ, List.drop_succ_cons] at h
      rw [hout, List.getElem?_cons_succ]
      exact ih (some c) left' h (Nat.lt_of_succ_lt_succ hi)
    cases left with
    | succ left =>
      cases i with
      | zero => rfl
      | succ j => exact later rfl rfl
    | zero =>
      cases hp : piece before (c :: cs) with
      | zero =>
        cases i with
        | zero => exact absurd hp h
        | succ j => exact later rfl (by simp only [blankOut, hp]; rfl)
      | succ n =>
        cases i with
        | zero => simp only [blankOut, hp]; rfl
        | succ j => exact later rfl (by simp only [blankOut, hp]; rfl)

/-- What the pass over links blanks is blank after all passes. -/
theorem maskNoise_of_link {t : Text} {i : Nat}
    (h : (blankOut (fun _ => linkLength) none 0 t)[i]? = some ' ') :
    (maskNoise t)[i]? = some ' ' :=
  blankOut_space _ (blankOut_space _ (blankOut_space _ h))

/-- **Wherever a link starts, one is masked**: it starts there, or earlier in the same stretch, and
is masked up to the end of the stretch or of what masking takes. -/
theorem exists_masked_link {t : Text} {i : Nat} {marker : Text} (h : LinkAt t i marker) :
    ∃ j first, LinkAt t j first ∧ j ≤ i ∧ i < maskedEnd t j first ∧
      solidEnd t j = solidEnd t i ∧
      ∀ x, j ≤ x → x < maskedEnd t j first → (maskNoise t)[x]? = some ' ' := by
  have hlt := h.lt_solidEnd
  have hsolid : SolidAt t i := solidAt_of_lt_solidEnd (Nat.le_refl _) (by omega)
  have hlink : linkLength (t.drop i) ≠ 0 := by
    have hend := h.add_linkLength
    have htail : 0 < longestTail := by decide
    rw [maskedEnd] at hend
    omega
  rcases blankOut_accounted none 0 t (Nat.zero_le i) with hkeep | ⟨j, hji, hij, hblank⟩
  · have hblanked : (blankOut (fun _ => linkLength) none 0 t)[i]? = some ' ' :=
      blankOut_of_piece none 0 t hlink hsolid.lt_length
    exact absurd (hkeep.symm.trans hblanked) hsolid.ne_space
  · obtain ⟨first, hfirst⟩ : ∃ first, LinkAt t j first := exists_linkAt (by omega)
    rw [hfirst.add_linkLength] at hij hblank
    have hend : maskedEnd t j first ≤ solidEnd t j := Nat.min_le_left _ _
    refine ⟨j, first, hfirst, hji, hij, ?_, fun x hx hlt => ?_⟩
    · exact solidEnd_eq_of_solid hji fun x hx hlt => solidAt_of_lt_solidEnd hx (by omega)
    · exact maskNoise_of_link (hblank x hx hlt (solidAt_of_lt_solidEnd hx (by omega)).lt_length)

/-! ### Candidates and blanks -/

/-- The span of the candidate and the stretch from `first` up to, and without, `stop` share an
index. -/
def Candidate.Meets (c : Candidate) (first stop : Nat) : Prop := c.first < stop ∧ first ≤ c.last

instance (c : Candidate) (first stop : Nat) : Decidable (c.Meets first stop) :=
  inferInstanceAs (Decidable (_ ∧ _))

/-- A blank within the span of a chain has a digit of the chain on both sides. -/
theorem Linked.between_digits {scan : Text} {chain : List Run} (h : Linked scan chain) {x : Nat}
    (hx : chainStart chain ≤ x) (hlt : x < chainStop chain) (hblank : scan[x]? = some ' ') :
    ∃ y, x = y + 1 ∧ scan[y]? ≠ some ' ' ∧ scan[y + 2]? ≠ some ' ' := by
  have solid : ∀ {r : Run} {y : Nat}, r ∈ chunks scan → r.start ≤ y → y < r.stop →
      scan[y]? ≠ some ' ' := by
    intro r y hr hy hlt hspace
    obtain ⟨c, hc, hdigit⟩ := Run.exists_of_mem (mem_runs_of_mem_chunks hr).1 hy hlt
    rw [hc] at hspace
    cases hspace
    exact absurd hdigit (by decide)
  induction h with
  | single hr => exact absurd hblank (solid hr hx hlt)
  | cons hr hlink hrest ih =>
    rename_i r s ss
    have hnext := (Run.linkedTo_iff.mp hlink).2
    have hrun := Run.start_lt_stop_of_mem (mem_runs_of_mem_chunks hr).1
    have hs := hrest.mem_chunks s List.mem_cons_self
    have hsrun := Run.start_lt_stop_of_mem (mem_runs_of_mem_chunks hs).1
    have hstart : chainStart (r :: s :: ss) = r.start := rfl
    have hhead : chainStart (s :: ss) = s.start := rfl
    rcases Nat.lt_trichotomy x r.stop with hbefore | rfl | hbehind
    · exact absurd hblank (solid hr (by omega) hbefore)
    · exact ⟨r.stop - 1, by omega, solid hr (by omega) (by omega), solid hs (by omega) (by omega)⟩
    · exact ih (by omega) hlt

/-- A blank within the span of a candidate stands alone. -/
theorem Candidate.FoundIn.alone {scan : Text} {c : Candidate} (h : c.FoundIn scan) {x : Nat}
    (hx : c.first ≤ x) (hlast : x ≤ c.last) (hblank : scan[x]? = some ' ') :
    ∃ y, x = y + 1 ∧ scan[y]? ≠ some ' ' ∧ scan[y + 2]? ≠ some ' ' := by
  have solid : ∀ {p : Char → Bool} {r : Run}, p ' ' = false → r ∈ Text.runs p scan →
      (r.start : Int) ≤ x → x ≤ (r.stop : Int) - 1 → False := by
    intro p r hp hr hstart hstop
    obtain ⟨d, hd, hpd⟩ := Run.exists_of_mem hr (i := x) (by omega) (by omega)
    rw [hd] at hblank
    cases hblank
    rw [hp] at hpd
    cases hpd
  cases h with
  | numeric hr => exact (solid (by decide) hr hx hlast).elim
  | alnum hr => exact (solid (by decide) hr hx hlast).elim
  | @grouped chain hchain =>
    rw [ofChain_first] at hx
    rw [ofChain_last] at hlast
    exact hchain.between_digits (by omega) (by omega) hblank

/-- No candidate reaches into a stretch of two or more blanks. -/
theorem Candidate.FoundIn.not_meets_of_blank {scan : Text} {c : Candidate} (h : c.FoundIn scan)
    {first stop : Nat} (hwide : first + 2 ≤ stop)
    (hblank : ∀ x, first ≤ x → x < stop → scan[x]? = some ' ') : ¬ c.Meets first stop := by
  rintro ⟨hstop, hfirst⟩
  obtain ⟨hnonneg, hle⟩ := h.first_le_last
  -- The first index that the span and the stretch share holds a blank with a blank beside it.
  obtain ⟨x, hx⟩ : ∃ x : Nat, (x : Int) = max (first : Int) c.first :=
    ⟨(max (first : Int) c.first).toNat, by omega⟩
  obtain ⟨y, rfl, hleft, hright⟩ :=
    h.alone (x := x) (by omega) (by omega) (hblank x (by omega) (by omega))
  rcases Nat.lt_or_ge y first with hy | hy
  · exact hright (hblank (y + 2) (by omega) (by omega))
  · exact hleft (hblank y hy (by omega))

/-! ### Links and candidates -/

/-- Masking takes more of a link than one character. -/
theorem LinkAt.wide {t : Text} {i : Nat} {marker : Text} (h : LinkAt t i marker) :
    i + 2 ≤ maskedEnd t i marker := by
  have hlong : ∀ m ∈ linkStarts, 4 ≤ m.length := by decide
  have hmarker := hlong _ h.mem
  have hlt := h.lt_solidEnd
  rw [maskedEnd]
  omega

/-- **No candidate reaches into a masked link.**  Wherever a link starts, a link starts there or
earlier in the same stretch such that no candidate meets it up to the end of the stretch or of what
masking takes.  If all links that start so early in the stretch have their end within what masking
takes, no candidate meets the link at all. -/
theorem not_meets_masked_link {t : Text} {i : Nat} {marker : Text} (h : LinkAt t i marker) :
    (∃ j first, LinkAt t j first ∧ j ≤ i ∧ i < maskedEnd t j first ∧ solidEnd t j = solidEnd t i ∧
      ∀ c ∈ candidatesOf t, ¬ c.Meets j (maskedEnd t j first)) ∧
    ((∀ j first, LinkAt t j first → j ≤ i → solidEnd t j = solidEnd t i →
        solidEnd t j ≤ j + first.length + longestTail) →
      ∀ c ∈ candidatesOf t, ¬ c.Meets i (solidEnd t i)) := by
  obtain ⟨j, first, hfirst, hji, hij, hend, hblank⟩ := exists_masked_link h
  have hapart : ∀ c ∈ candidatesOf t, ¬ c.Meets j (maskedEnd t j first) := fun c hc =>
    (foundIn_of_mem_candidatesOf hc).not_meets_of_blank hfirst.wide hblank
  refine ⟨⟨j, first, hfirst, hji, hij, hend, hapart⟩, fun hshort c hc hmeets => ?_⟩
  have hwhole : maskedEnd t j first = solidEnd t i :=
    (Nat.min_eq_left (hshort j first hfirst hji hend)).trans hend
  exact hapart c hc ⟨hwhole ▸ hmeets.1, by have := hmeets.2; omega⟩

/-- A link with the marker of another one in it. -/
def linkInLink : Text := "Go to HTTPS://a.www.b/123456".toList

theorem linkAt_linkInLink : LinkAt linkInLink 16 "www.".toList :=
  ⟨by decide, by decide +kernel, 'b', by decide +kernel, by decide⟩

theorem not_meets_linkInLink :
    LinkAt linkInLink 16 "www.".toList ∧
      (∃ j first, LinkAt linkInLink j first ∧ j ≤ 16 ∧ 16 < maskedEnd linkInLink j first ∧
        ∀ c ∈ candidatesOf linkInLink, ¬ c.Meets j (maskedEnd linkInLink j first)) ∧
      ∀ c ∈ candidatesOf linkInLink, ¬ c.Meets 16 (solidEnd linkInLink 16) := by
  obtain ⟨⟨j, first, hfirst, hj, hj', -, hapart⟩, hwhole⟩ :=
    not_meets_masked_link linkAt_linkInLink
  refine ⟨linkAt_linkInLink, ⟨j, first, hfirst, hj, hj', hapart⟩, hwhole ?_⟩
  intro j first h _ _
  have hlength : linkInLink.length ≤ longestTail := by decide +kernel
  have hlt := h.solid.lt_length
  have hend := solidEnd_le_length (t := linkInLink) (i := j) (by omega)
  omega

/-- A link whose digits stand behind what masking takes. -/
def longLink : Text := "https://".toList ++ List.replicate longestTail 'a' ++ "/123456".toList

/-- Behind what masking takes of a link its digits are a candidate. -/
theorem digits_behind_long_link :
    LinkAt longLink 0 "https://".toList ∧ solidEnd longLink 0 = longLink.length ∧
      ∃ c ∈ candidatesOf longLink, c.code = "123456".toList ∧
        c.Meets 0 (solidEnd longLink 0) := by
  have hlink : LinkAt longLink 0 "https://".toList :=
    ⟨by decide, by decide +kernel, 'a', by decide +kernel, by decide⟩
  have hcandidates : candidatesOf longLink =
      [⟨"123456".toList, 2057, 2062, true, .numeric⟩] := by decide +kernel
  have hend : solidEnd longLink 0 = 2063 := by decide +kernel
  have hlength : longLink.length = 2063 := by decide +kernel
  refine ⟨hlink, hend.trans hlength.symm, ⟨"123456".toList, 2057, 2062, true, .numeric⟩, ?_,
    rfl, ?_⟩
  · rw [hcandidates]; exact List.mem_singleton_self _
  · rw [hend]; decide

end Passcode
