import Passcode.Proofs.Pattern.Search

/-!
# Scan — what a search finds, from left to right

At each index a search asks where a match can end, takes the first answer, and goes on behind the
match (`scanFrom`).  The search for a pattern is of this kind (`findAll_eq_scanFrom`), and so is the
search for a pattern beside which no character of one kind may stand (`findClear`).

What is found is decided by where matches start: spans that stand from left to right are what a
search finds if each of them is the match at its start and no match starts outside of them
(`Finds`, `scanFrom_of_finds`).  Where matches start at runs only, and end with them, the runs are
what is found (`scanFrom_of_runs`).
-/

namespace Passcode.Pattern

/-- The matches that start at one of `left` indices from `pos` on, the first `skip` being passed
over, for a search that asks `ends` where a match can end. -/
def scanFrom (ends : Nat → List Nat) : Nat → Nat → Nat → List (Nat × Nat)
  | 0, _, _ => []
  | left + 1, skip + 1, pos => scanFrom ends left skip (pos + 1)
  | left + 1, 0, pos =>
    match (ends pos).head? with
    | some stop => (pos, stop) :: scanFrom ends left (stop - pos - 1) (pos + 1)
    | none => scanFrom ends left 0 (pos + 1)

theorem findFrom_eq_scanFrom (t : Text) (a : Pattern) (left skip pos : Nat) :
    findFrom t a left skip pos = scanFrom (a.ends t) left skip pos := by
  induction left generalizing skip pos with
  | zero => rfl
  | succ left ih =>
    cases skip with
    | succ skip => exact ih skip (pos + 1)
    | zero =>
      rw [findFrom, scanFrom]
      cases (a.ends t pos).head? with
      | none => exact ih 0 (pos + 1)
      | some stop => exact congrArg _ (ih (stop - pos - 1) (pos + 1))

theorem findAll_eq_scanFrom (t : Text) (a : Pattern) :
    findAll t a = scanFrom (a.ends t) (t.length + 1) 0 0 :=
  findFrom_eq_scanFrom t a _ _ _

/-! ### Patterns that stand clear -/

/-- Where the pattern can end if it starts at an index and no character with the property `q` may
stand right before it or right behind it, in the order of preference. -/
def clearEnds (q : Char → Bool) (t : Text) (a : Pattern) (i : Nat) : List Nat :=
  if hasBefore q t i then [] else (a.ends t i).filter (fun stop => !has q t stop)

/-- The matches of a pattern beside which no character with the property `q` stands. -/
def findClear (q : Char → Bool) (t : Text) (a : Pattern) : List (Nat × Nat) :=
  scanFrom (a.clearEnds q t) (t.length + 1) 0 0

/-! ### What is found -/

/-- From `pos` on a search finds the spans: they stand from left to right up to `last`, each is the
match at its start, and no match starts outside of them. -/
structure Finds (ends : Nat → List Nat) (last pos : Nat) (spans : List (Nat × Nat)) : Prop where
  ordered : spans.Pairwise (fun a b => a.2 ≤ b.1)
  bounds : ∀ s ∈ spans, pos ≤ s.1 ∧ s.1 < s.2 ∧ s.2 ≤ last
  matched : ∀ s ∈ spans, (ends s.1).head? = some s.2
  outside : ∀ i, pos ≤ i → (∀ s ∈ spans, i < s.1 ∨ s.2 ≤ i) → ends i = []

section

variable {ends : Nat → List Nat} {last pos left stop : Nat} {spans : List (Nat × Nat)}

namespace Finds

/-- Where no span starts no match starts, and the search goes on at the next index. -/
theorem next (h : Finds ends last pos spans) (hlater : ∀ s ∈ spans, pos < s.1) :
    ends pos = [] ∧ Finds ends last (pos + 1) spans where
  left := h.outside pos (Nat.le_refl _) fun s hs => .inl (hlater s hs)
  right := {
    ordered := h.ordered
    bounds := fun s hs => ⟨hlater s hs, (h.bounds s hs).2⟩
    matched := h.matched
    outside := fun i hi => h.outside i (Nat.le_of_succ_le hi) }

/-- Behind the first span the search finds the others. -/
theorem behind (h : Finds ends last pos ((pos, stop) :: spans)) : Finds ends last stop spans where
  ordered := (List.pairwise_cons.mp h.ordered).2
  bounds s hs :=
    ⟨(List.pairwise_cons.mp h.ordered).1 s hs, (h.bounds s (List.mem_cons_of_mem _ hs)).2⟩
  matched s hs := h.matched s (List.mem_cons_of_mem _ hs)
  outside i hi hout := by
    have hspan := (h.bounds _ List.mem_cons_self).2.1
    refine h.outside i (Nat.le_trans (Nat.le_of_lt hspan) hi) fun s hs => ?_
    rcases List.mem_cons.mp hs with rfl | hs
    · exact .inr hi
    · exact hout s hs

/-- All spans start behind an index at which the first one does not. -/
theorem lt_start (h : Finds ends last pos spans) (hfirst : ∀ s ∈ spans.head?, s.1 ≠ pos) :
    ∀ s ∈ spans, pos < s.1 := by
  cases spans with
  | nil => nofun
  | cons a rest =>
    have ha := h.bounds a List.mem_cons_self
    have hne := hfirst a rfl
    intro s hs
    rcases List.mem_cons.mp hs with rfl | hs
    · omega
    · have := (List.pairwise_cons.mp h.ordered).1 s hs
      omega

end Finds

/-- The matches behind the characters that are passed over. -/
theorem scanFrom_skip {skip : Nat} (h : skip ≤ left) :
    scanFrom ends left skip pos = scanFrom ends (left - skip) 0 (pos + skip) := by
  induction skip generalizing left pos with
  | zero => rfl
  | succ skip ih =>
    cases left with
    | zero => exact absurd h (Nat.not_succ_le_zero _)
    | succ left =>
      rw [scanFrom, ih (Nat.le_of_succ_le_succ h), Nat.succ_sub_succ, Nat.add_right_comm,
        Nat.add_assoc]

/-- A search finds what it finds step by step. -/
theorem scanFrom_of_finds (hplace : pos + left = last + 1) (h : Finds ends last pos spans) :
    scanFrom ends left 0 pos = spans := by
  induction left using Nat.strongRecOn generalizing pos spans with
  | _ left ih =>
  cases left with
  | zero =>
    cases spans with
    | nil => rfl
    | cons s rest =>
      have := h.bounds s List.mem_cons_self
      omega
  | succ left =>
    by_cases hfirst : ∀ s ∈ spans.head?, s.1 ≠ pos
    · obtain ⟨hnone, hnext⟩ := h.next (h.lt_start hfirst)
      rw [scanFrom, hnone]
      exact ih left (Nat.lt_succ_self _) (by omega) hnext
    · cases spans with
      | nil => exact absurd nofun hfirst
      | cons s rest =>
        obtain ⟨start, stop⟩ := s
        obtain rfl : start = pos := Decidable.byContradiction fun hne =>
          hfirst fun s hs => by cases hs; exact hne
        obtain ⟨-, hspan, hlast⟩ := h.bounds _ List.mem_cons_self
        dsimp only at hspan hlast
        have hstop : start + 1 + (stop - start - 1) = stop := by omega
        rw [scanFrom, h.matched _ List.mem_cons_self]
        dsimp only
        rw [scanFrom_skip (by omega), hstop, ih _ (by omega) (by omega) h.behind]

/-! ### Matches that are runs -/

/-- Where matches start at some of the runs only, and end with them, these runs are found. -/
theorem scanFrom_of_runs {p : Char → Bool} {t : Text} {chosen : Run → Bool}
    (hends : ∀ r ∈ Text.runs p t, chosen r = true → ends r.start = [r.stop])
    (hstart : ∀ i, ends i ≠ [] → ∃ r ∈ Text.runs p t, chosen r = true ∧ r.start = i) :
    scanFrom ends (t.length + 1) 0 0 =
      ((Text.runs p t).filter chosen).map (fun r => (r.start, r.stop)) := by
  refine scanFrom_of_finds (Nat.zero_add _) {
    ordered := List.pairwise_map.mpr (((Text.runs_pairwise p t).filter chosen).imp Nat.le_of_lt)
    bounds := fun s hs => ?_
    matched := fun s hs => ?_
    outside := fun i _ hout => ?_ }
  · obtain ⟨r, hr, rfl⟩ := List.mem_map.mp hs
    have hmem := (List.mem_filter.mp hr).1
    exact ⟨Nat.zero_le _, Run.start_lt_stop_of_mem hmem, Run.stop_le_length_of_mem hmem⟩
  · obtain ⟨r, hr, rfl⟩ := List.mem_map.mp hs
    obtain ⟨hmem, hchosen⟩ := List.mem_filter.mp hr
    rw [hends r hmem hchosen]
    rfl
  · refine Classical.byContradiction fun hsome => ?_
    obtain ⟨r, hmem, hchosen, rfl⟩ := hstart i hsome
    have hspan := Run.start_lt_stop_of_mem hmem
    rcases hout (r.start, r.stop)
      (List.mem_map.mpr ⟨r, List.mem_filter.mpr ⟨hmem, hchosen⟩, rfl⟩) with hlt | hle
    · exact Nat.lt_irrefl _ hlt
    · exact Nat.not_le_of_lt hspan hle

end

end Passcode.Pattern
