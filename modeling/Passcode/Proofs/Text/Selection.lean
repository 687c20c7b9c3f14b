import Passcode.Text.Basic

/-!
# Selection — the occurrences that a search from the left selects

A search for a word goes from the left: it finds the first place at which the word stands, goes on
behind the word, and ends where the word stands no more (`Text.SearchEnds`).  For a word that is not
empty it ends, and with the places that `Text.selectFrom` lists (`Text.searchEnds_iff`); for the
empty word, which stands everywhere and behind which nothing is passed over, it does not
(`Text.not_searchEnds_nil`).

The places selected are occurrences of the word, no two of them overlap, and every occurrence
overlaps one of them that starts no later (`Text.Selects`, `Text.selects_selectFrom`).
-/

namespace Passcode.Text

/-- The word stands in the text at index `i`. -/
def StandsAt (word t : Text) (i : Nat) : Prop := i ≤ t.length ∧ word <+: t.drop i

/-- From index `start` on, `i` is the first index at which the word stands. -/
structure StandsFirst (word t : Text) (start i : Nat) : Prop where
  start_le : start ≤ i
  stands : StandsAt word t i
  first : ∀ j, start ≤ j → j < i → ¬ StandsAt word t j

/-- A search from index `start` on ends after it has found the word at some indices. -/
inductive SearchEnds (word t : Text) : Nat → List Nat → Prop where
  /-- The word stands nowhere any more. -/
  | nowhere {start : Nat} (h : ∀ i, start ≤ i → ¬ StandsAt word t i) : SearchEnds word t start []
  /-- The word stands at `i` first, and the search goes on behind it. -/
  | found {start i : Nat} {is : List Nat} (h : StandsFirst word t start i)
      (rest : SearchEnds word t (i + word.length) is) : SearchEnds word t start (i :: is)

/-- The indices are those of occurrences of the word that do not overlap, each occurrence overlaps
one of these, and that one starts no later. -/
structure Selects (word t : Text) (is : List Nat) : Prop where
  stands : ∀ i ∈ is, StandsAt word t i
  apart : is.Pairwise (fun i j => i + word.length ≤ j)
  covers : ∀ i, StandsAt word t i → ∃ j ∈ is, j ≤ i ∧ i < j + word.length

variable {word t : Text} {start i : Nat} {is : List Nat}

theorem StandsAt.stop_le (h : StandsAt word t i) : i + word.length ≤ t.length := by
  have hle := h.2.length_le
  rw [List.length_drop] at hle
  have := h.1
  omega

theorem exists_standsAt_iff : (∃ i, StandsAt word t i) ↔ word <:+: t := by
  constructor
  · rintro ⟨i, -, hprefix⟩
    exact hprefix.isInfix.trans (List.drop_suffix i t).isInfix
  · rintro ⟨before, behind, rfl⟩
    refine ⟨before.length, ?_, ?_⟩
    · simp
    · rw [List.append_assoc, List.drop_left]
      exact List.prefix_append _ _

/-! ### Searches -/

namespace SearchEnds

/-- Where the word does not stand the search passes one character over. -/
theorem of_succ (hnot : ¬ StandsAt word t start) (h : SearchEnds word t (start + 1) is) :
    SearchEnds word t start is := by
  have hne {j : Nat} (hj : StandsAt word t j) : j ≠ start := by
    rintro rfl
    exact hnot hj
  cases h with
  | nowhere h =>
    refine .nowhere fun j hle hj => h j ?_ hj
    have := hne hj
    omega
  | found hfirst rest =>
    refine .found ⟨Nat.le_of_succ_le hfirst.start_le, hfirst.stands, ?_⟩ rest
    intro j hle hlt hj
    have := hne hj
    exact hfirst.first j (by omega) hlt hj

theorem start_le (h : SearchEnds word t start is) : ∀ i ∈ is, start ≤ i := by
  induction h with
  | nowhere => exact nofun
  | found hfirst _ ih =>
    intro j hj
    have hle := hfirst.start_le
    rcases List.mem_cons.mp hj with rfl | hj
    · exact hle
    · have := ih j hj
      omega

theorem stands (h : SearchEnds word t start is) : ∀ i ∈ is, StandsAt word t i := by
  induction h with
  | nowhere => exact nofun
  | found hfirst _ ih => exact List.forall_mem_cons.mpr ⟨hfirst.stands, ih⟩

theorem apart (h : SearchEnds word t start is) :
    is.Pairwise (fun i j => i + word.length ≤ j) := by
  induction h with
  | nowhere => exact .nil
  | found _ rest ih => exact .cons rest.start_le ih

/-- What the search has passed over overlaps what it has found. -/
theorem covers (h : SearchEnds word t start is) (hstart : start ≤ i) (hi : StandsAt word t i) :
    ∃ j ∈ is, j ≤ i ∧ i < j + word.length := by
  induction h with
  | nowhere h => exact absurd hi (h i hstart)
  | @found start j is hfirst _ ih =>
    have hle : j ≤ i := Nat.le_of_not_lt fun hlt => hfirst.first i hstart hlt hi
    by_cases hover : i < j + word.length
    · exact ⟨j, List.mem_cons_self, hle, hover⟩
    · obtain ⟨k, hk, hbounds⟩ := ih (by omega)
      exact ⟨k, List.mem_cons_of_mem _ hk, hbounds⟩

/-- A search ends in one way only. -/
theorem unique {is' : List Nat} (h : SearchEnds word t start is)
    (h' : SearchEnds word t start is') : is' = is := by
  induction h generalizing is' with
  | nowhere hnone =>
    cases h' with
    | nowhere => rfl
    | found hfirst => exact absurd hfirst.stands (hnone _ hfirst.start_le)
  | @found start i is hfirst _ ih =>
    cases h' with
    | nowhere hnone => exact absurd hfirst.stands (hnone _ hfirst.start_le)
    | @found _ j _ hfirst' rest' =>
      have hle : ¬ j < i := fun hlt => hfirst.first j hfirst'.start_le hlt hfirst'.stands
      have hge : ¬ i < j := fun hlt => hfirst'.first i hfirst.start_le hlt hfirst.stands
      obtain rfl : j = i := by omega
      rw [ih rest']

end SearchEnds

/-- A search for the empty word does not end: the word stands where the search goes on. -/
theorem not_searchEnds_nil (h : start ≤ t.length) : ¬ SearchEnds [] t start is := by
  intro hends
  induction hends with
  | nowhere hnone => exact hnone _ (Nat.le_refl _) ⟨h, List.nil_prefix⟩
  | found hfirst _ ih => exact ih hfirst.stands.1

/-! ### The places that are listed -/

/-- The search from behind the characters that are passed over ends with what is listed of the rest
of the text. -/
theorem searchEnds_selectFrom (hne : word ≠ []) {rest : Text} {pos skip : Nat}
    (hrest : t.drop pos = rest) :
    SearchEnds word t (pos + skip) (selectFrom word pos skip rest) := by
  induction rest generalizing pos skip with
  | nil =>
    refine .nowhere fun i hi hstands => hne ?_
    have hle : t.length ≤ pos := List.drop_eq_nil_iff.mp hrest
    have hnil : t.drop i = [] := List.drop_eq_nil_of_le (by omega)
    exact List.prefix_nil.mp (hnil ▸ hstands.2)
  | cons c cs ih =>
    have hcs : t.drop (pos + 1) = cs := by
      rw [← List.drop_drop, hrest, List.drop_succ_cons, List.drop_zero]
    have hlt : pos < t.length := by
      have hlength := congrArg List.length hrest
      rw [List.length_drop, List.length_cons] at hlength
      omega
    cases skip with
    | succ skip =>
      have hstep : pos + (skip + 1) = pos + 1 + skip := by omega
      rw [hstep]
      exact ih hcs
    | zero =>
      rw [selectFrom]
      split
      · rename_i hprefix
        have hstands : StandsAt word t pos :=
          ⟨Nat.le_of_lt hlt, hrest ▸ List.isPrefixOf_iff_prefix.mp hprefix⟩
        have hlength := List.length_pos_iff.mpr hne
        have hbehind : pos + 1 + (word.length - 1) = pos + word.length := by omega
        have hends : SearchEnds word t (pos + 1 + (word.length - 1)) _ := ih hcs
        rw [hbehind] at hends
        exact .found ⟨Nat.le_refl _, hstands, fun j hle hlt => by omega⟩ hends
      · rename_i hprefix
        have hends : SearchEnds word t (pos + 1 + 0) _ := ih hcs
        refine .of_succ ?_ hends
        rintro ⟨-, hstands⟩
        exact hprefix (List.isPrefixOf_iff_prefix.mpr (hrest ▸ hstands))

/-- **A search for a word that is not empty ends, with the places that are listed.** -/
theorem searchEnds_iff (hne : word ≠ []) :
    SearchEnds word t 0 is ↔ is = selectFrom word 0 0 t := by
  have hends : SearchEnds word t (0 + 0) (selectFrom word 0 0 t) :=
    searchEnds_selectFrom hne List.drop_zero
  constructor
  · exact hends.unique
  · rintro rfl
    exact hends

/-- The places that are listed select occurrences that overlap no other and leave none out. -/
theorem selects_selectFrom (hne : word ≠ []) : Selects word t (selectFrom word 0 0 t) := by
  have hends := (searchEnds_iff (t := t) hne).mpr rfl
  exact ⟨hends.stands, hends.apart, fun i hi => hends.covers (Nat.zero_le i) hi⟩

end Passcode.Text
