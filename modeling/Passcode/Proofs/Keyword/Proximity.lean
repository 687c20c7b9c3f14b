import Passcode.Proofs.Signals

/-!
# Proximity — the nearest of two centres is the nearest of all

How far the nearest centre is from an index is found from two entries of the ascending list of
centres at most, those on both sides of the place of the index (`neighbours`), and it is the least
of the distances to all of them (`distanceToNearest_eq_min?`).  So the points for a keyword near a
candidate tell within which of the three distances some centre lies
(`Breakdown.proximity_by_nearest`).
-/

namespace Passcode

/-! ### The two neighbours -/

/-- The entries of an ascending list on both sides of the place that the index has in it, which is
the number of entries below the index. -/
def neighbours (index : Int) (centres : List Int) : List Int :=
  let place := centres.countP (· < index)
  (centres.take (place + 1)).drop (place - 1)

theorem length_neighbours (index : Int) (centres : List Int) :
    (neighbours index centres).length ≤ 2 := by
  rw [neighbours, List.length_drop, List.length_take]
  omega

variable {index : Int} {centres : List Int}

/-- The place of an index parts the entries below it from the others. -/
theorem countP_eq_length_takeWhile (hsorted : centres.Pairwise (· ≤ ·)) :
    centres.countP (· < index) = (centres.takeWhile (· < index)).length := by
  have hbelow : (centres.takeWhile (· < index)).countP (· < index) =
      (centres.takeWhile (· < index)).length :=
    List.countP_eq_length.mpr (List.all_eq_true.mp List.all_takeWhile)
  have hzero : (centres.dropWhile (· < index)).countP (· < index) = 0 :=
    List.countP_eq_zero.mpr fun c hc => by simpa using le_of_mem_dropWhile hsorted hc
  calc centres.countP (· < index)
    _ = (centres.takeWhile (· < index) ++ centres.dropWhile (· < index)).countP (· < index) := by
        rw [List.takeWhile_append_dropWhile]
    _ = (centres.takeWhile (· < index)).length := by
        rw [List.countP_append, hbelow, hzero, Nat.add_zero]

/-- The last of some entries and the first of those behind them stand next to each other. -/
theorem drop_take_append (below above : List Int) :
    ((below ++ above).take (below.length + 1)).drop (below.length - 1) =
      below.getLast?.toList ++ above.head?.toList := by
  have hhead : above.take 1 = above.head?.toList := by
    cases above <;> rfl
  rw [List.take_length_add_append, hhead]
  rcases List.eq_nil_or_concat below with rfl | ⟨before, b, rfl⟩
  · rfl
  · simp

theorem neighbours_eq (hsorted : centres.Pairwise (· ≤ ·)) :
    neighbours index centres =
      (centres.takeWhile (· < index)).getLast?.toList ++
        (centres.dropWhile (· < index)).head?.toList := by
  rw [← drop_take_append, List.takeWhile_append_dropWhile, neighbours,
    countP_eq_length_takeWhile hsorted]

/-- The distance to the nearest centre is the lesser of the distances to the two neighbours. -/
theorem distanceToNearest_eq_neighbours (hsorted : centres.Pairwise (· ≤ ·)) :
    distanceToNearest index centres =
      ((neighbours index centres).map fun c => (index - c).natAbs).min? := by
  rw [neighbours_eq hsorted, distanceToNearest_eq]
  cases (centres.takeWhile (· < index)).getLast? <;>
    cases (centres.dropWhile (· < index)).head? <;> rfl

/-! ### All centres -/

theorem distanceToNearest_eq_none_iff (hsorted : centres.Pairwise (· ≤ ·)) :
    distanceToNearest index centres = none ↔ centres = [] := by
  constructor
  · intro hnone
    refine List.eq_nil_iff_forall_not_mem.mpr fun c hc => ?_
    obtain ⟨d, hd, -⟩ : ∃ d, distanceToNearest index centres = some d ∧ _ :=
      distanceToNearest_le hsorted hc
    rw [hnone] at hd
    cases hd
  · rintro rfl
    rfl

/-- **The nearest of two is the nearest of all.** -/
theorem distanceToNearest_eq_min? (hsorted : centres.Pairwise (· ≤ ·)) :
    distanceToNearest index centres = (centres.map fun c => (index - c).natAbs).min? := by
  cases hnearest : distanceToNearest index centres with
  | none =>
    obtain rfl := (distanceToNearest_eq_none_iff hsorted).mp hnearest
    rfl
  | some d =>
    symm
    rw [List.min?_eq_some_iff]
    constructor
    · obtain ⟨c, hc, rfl⟩ := exists_of_distanceToNearest hnearest
      exact List.mem_map_of_mem hc
    · intro e he
      obtain ⟨c, hc, rfl⟩ := List.mem_map.mp he
      obtain ⟨d', hd', hle⟩ : ∃ d', distanceToNearest index centres = some d' ∧ _ :=
        distanceToNearest_le hsorted hc
      rw [hnearest] at hd'
      rw [Option.some.inj hd']
      exact hle

/-- Some centre lies within a distance exactly if the nearest one does. -/
theorem exists_within_iff (hsorted : centres.Pairwise (· ≤ ·)) {reach : Nat} :
    (∃ c ∈ centres, (index - c).natAbs ≤ reach) ↔
      ∃ d, distanceToNearest index centres = some d ∧ d ≤ reach := by
  constructor
  · rintro ⟨c, hc, hreach⟩
    obtain ⟨d, hd, hle⟩ : ∃ d, distanceToNearest index centres = some d ∧ _ :=
      distanceToNearest_le hsorted hc
    exact ⟨d, hd, Nat.le_trans hle hreach⟩
  · rintro ⟨d, hd, hreach⟩
    obtain ⟨c, hc, rfl⟩ := exists_of_distanceToNearest hd
    exact ⟨c, hc, hreach⟩

/-! ### Points -/

/-- The points for the nearest centre are those of the first distance within which one lies. -/
theorem Signal.ofDistance_eq_tier (hsorted : centres.Pairwise (· ≤ ·)) :
    (ofDistance (distanceToNearest index centres)).halves =
      if ∃ c ∈ centres, (index - c).natAbs ≤ 20 then 4
      else if ∃ c ∈ centres, (index - c).natAbs ≤ 40 then 2
      else if ∃ c ∈ centres, (index - c).natAbs ≤ 80 then 1
      else 0 := by
  simp only [exists_within_iff hsorted]
  cases distanceToNearest index centres with
  | none => simp [ofDistance, Score.zero]
  | some d => simp [ofDistance_some]

/-- **Proximity by the nearest centre**: for centres in ascending order and any span, there is no
distance exactly if there are no centres, and the distance is the least of those from the middle of
the span to all centres, though at most two of them are looked at.  The points, in halves, are those
of the first of three distances within which some centre lies. -/
theorem Breakdown.proximity_by_nearest (s : Surroundings) (hsorted : s.centres.Pairwise (· ≤ ·))
    (facts : LineFacts) (c : Candidate) :
    let index := middle c.first c.last
    (distanceToNearest index s.centres = none ↔ s.centres = []) ∧
    distanceToNearest index s.centres = (s.centres.map fun x => (index - x).natAbs).min? ∧
    (neighbours index s.centres).length ≤ 2 ∧
    distanceToNearest index s.centres =
      ((neighbours index s.centres).map fun x => (index - x).natAbs).min? ∧
    (ofCandidate s facts c).keywordProximity.halves =
      if ∃ x ∈ s.centres, (index - x).natAbs ≤ 20 then 4
      else if ∃ x ∈ s.centres, (index - x).natAbs ≤ 40 then 2
      else if ∃ x ∈ s.centres, (index - x).natAbs ≤ 80 then 1
      else 0 := by
  intro index
  exact ⟨distanceToNearest_eq_none_iff hsorted, distanceToNearest_eq_min? hsorted,
    length_neighbours index s.centres, distanceToNearest_eq_neighbours hsorted,
    Signal.ofDistance_eq_tier hsorted⟩

/-- Surroundings with a centre before the text, two equal ones, and one behind the candidate. -/
def centredSurroundings : Surroundings :=
  { text := [], lower := [], centres := [-30, 25, 25, 104], moneyIndicators := []
    hasSafetyKeyword := false, moneyRadius := 0, phoneWindow := 0 }

/-- A candidate whose middle, 64, has a centre 39 characters before it and one 40 behind it. -/
def centredCandidate : Candidate :=
  { code := "482911".toList, first := 62, last := 67, numeric := true, source := .numeric }

theorem Breakdown.proximity_by_nearest_between :
    centredSurroundings.centres.Pairwise (· ≤ ·) ∧
      neighbours 64 centredSurroundings.centres = [25, 104] ∧
      distanceToNearest 64 centredSurroundings.centres = some 39 ∧
      (ofCandidate centredSurroundings (.of (.cut [] 0 0))
        centredCandidate).keywordProximity.halves = 2 := by
  have hsorted : centredSurroundings.centres.Pairwise (· ≤ ·) := by decide
  obtain ⟨-, hmin, -, -, hpoints⟩ :=
    proximity_by_nearest centredSurroundings hsorted (.of (.cut [] 0 0)) centredCandidate
  refine ⟨hsorted, by decide, hmin.trans (by decide), hpoints.trans ?_⟩
  decide

end Passcode
