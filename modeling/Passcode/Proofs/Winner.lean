import Passcode.Proofs.Binary64.Order
import Passcode.Signal

/-!
# Winner — the first of the best, by exact scores

* `firstBest?_split`: the scan stops at the entry that splits the list into entries that are
  strictly worse before it and entries that are no better behind it.
* `toBinary64_le`: scores, which are counted in halves, become numbers in the same order.
* `isFinite_score`: the ten contributions are bounded, so the score of a candidate is finite.
-/

namespace Passcode

/-! ### The scan for the first of the best -/

section Scan

variable {α : Type} {f : α → Int} {exceeds : α → α → Bool}

/-- The best one is at least as good as the one that the search starts with. -/
theorem le_bestFrom (hf : ∀ a b, exceeds a b = true ↔ f b < f a) (best : α) (xs : List α) :
    f best ≤ f (bestFrom exceeds best xs) := by
  induction xs generalizing best with
  | nil => exact Int.le_refl _
  | cons x xs ih =>
    by_cases hx : exceeds x best = true
    · rw [bestFrom, if_pos hx]
      exact Int.le_trans (Int.le_of_lt ((hf x best).mp hx)) (ih x)
    · rw [bestFrom, if_neg hx]
      exact ih best

/-- The invariant of the scan: `best` is the first of the best among what is passed already. -/
theorem bestFrom_split (hf : ∀ a b, exceeds a b = true ↔ f b < f a) (best : α) (xs : List α) :
    ∃ before behind, best :: xs = before ++ bestFrom exceeds best xs :: behind ∧
      (∀ y ∈ before, f y < f (bestFrom exceeds best xs)) ∧
      ∀ y ∈ behind, f y ≤ f (bestFrom exceeds best xs) := by
  induction xs generalizing best with
  | nil => exact ⟨[], [], rfl, nofun, nofun⟩
  | cons x xs ih =>
    by_cases hx : exceeds x best = true
    · obtain ⟨before, behind, hsplit, hbefore, hbehind⟩ := ih x
      have hbest : f best < f x := (hf x best).mp hx
      rw [bestFrom, if_pos hx]
      -- From here on `best` is passed, and it is worse than `x` and so than what comes of `x`.
      refine ⟨best :: before, behind, by rw [hsplit, List.cons_append], ?_, hbehind⟩
      intro y hy
      rcases List.mem_cons.mp hy with rfl | hy
      · exact Int.lt_of_lt_of_le hbest (le_bestFrom hf x xs)
      · exact hbefore y hy
    · obtain ⟨before, behind, hsplit, hbefore, hbehind⟩ := ih best
      have hle : f x ≤ f best := by
        have : ¬ f best < f x := fun h => hx ((hf x best).mpr h)
        omega
      rw [bestFrom, if_neg hx]
      -- `x` goes behind `best` if that stays the best, and before the later best otherwise.
      cases before with
      | nil =>
        obtain ⟨hb, rfl⟩ := List.cons.inj hsplit
        refine ⟨[], x :: xs, by rw [← hb]; rfl, nofun, ?_⟩
        intro y hy
        rcases List.mem_cons.mp hy with rfl | hy
        · rw [← hb]; exact hle
        · exact hbehind y hy
      | cons b before =>
        obtain ⟨rfl, hxs⟩ := List.cons.inj hsplit
        have hb := hbefore best List.mem_cons_self
        refine ⟨best :: x :: before, behind, congrArg (best :: x :: ·) hxs, ?_, hbehind⟩
        intro y hy
        rcases List.mem_cons.mp hy with rfl | hy
        · exact hb
        · rcases List.mem_cons.mp hy with rfl | hy
          · omega
          · exact hbefore y (List.mem_cons_of_mem _ hy)

/-- The best one is better than all before it and as good as all behind it. -/
theorem firstBest?_split (hf : ∀ a b, exceeds a b = true ↔ f b < f a) {xs : List α} {w : α}
    (h : firstBest? exceeds xs = some w) :
    ∃ before behind, xs = before ++ w :: behind ∧
      (∀ y ∈ before, f y < f w) ∧ ∀ y ∈ behind, f y ≤ f w := by
  cases xs with
  | nil => cases h
  | cons x xs => cases h; exact bestFrom_split hf x xs

end Scan

/-- Scores are compared by their halves. -/
theorem Score.exceeds_iff {a b : Score} : a.exceeds b = true ↔ b.halves < a.halves :=
  decide_eq_true_iff

/-- The winner has a greater score than every candidate before it, and no candidate behind it has a
greater one. -/
theorem winner?_split {scored : List ScoredCandidate} {w : ScoredCandidate}
    (h : winner? scored = some w) :
    ∃ before behind, scored = before ++ w :: behind ∧
      (∀ s ∈ before, s.score.halves < w.score.halves) ∧
      ∀ s ∈ behind, s.score.halves ≤ w.score.halves :=
  firstBest?_split (f := fun s : ScoredCandidate => s.score.halves)
    (fun _ _ => Score.exceeds_iff) h

/-- The winner is one of the candidates, and none has a greater score. -/
theorem winner?_max {scored : List ScoredCandidate} {w : ScoredCandidate}
    (h : winner? scored = some w) :
    w ∈ scored ∧ ∀ s ∈ scored, s.score.halves ≤ w.score.halves := by
  obtain ⟨before, behind, rfl, hbefore, hbehind⟩ := winner?_split h
  refine ⟨List.mem_append_right _ List.mem_cons_self, fun s hs => ?_⟩
  rcases List.mem_append.mp hs with hs | hs
  · exact Int.le_of_lt (hbefore s hs)
  · rcases List.mem_cons.mp hs with rfl | hs
    · exact Int.le_refl _
    · exact hbehind s hs

/-! ### Scores as numbers -/

/-- Scores become numbers in the same order. -/
theorem Score.toBinary64_le {a b : Score} (h : a.halves ≤ b.halves) :
    a.toBinary64.le b.toBinary64 = true :=
  Binary64.ofFraction_le_ofFraction 2
    (by rw [Binary64.key_natAbs, Binary64.key_natAbs]; exact h)

/-- A score of at most fifty points, up or down, is a finite number. -/
theorem Score.isFinite_toBinary64 {s : Score} (hlow : -100 ≤ s.halves) (hhigh : s.halves ≤ 100) :
    s.toBinary64.isFinite = true := by
  obtain ⟨-, hs, hl⟩ := Binary64.le_iff.mp (toBinary64_le (a := ⟨-100⟩) hlow)
  obtain ⟨-, -, hh⟩ := Binary64.le_iff.mp (toBinary64_le (b := ⟨100⟩) hhigh)
  have hbottom : -(topRank : Int) < Binary64.position (Score.toBinary64 ⟨-100⟩) := by
    decide +kernel
  have htop : Binary64.position (Score.toBinary64 ⟨100⟩) < (topRank : Int) := by decide +kernel
  exact Binary64.isFinite_iff.mpr ⟨hs, by omega, by omega⟩

/-! ### The bounds of the contributions -/

namespace Signal

/-- Points that may be given lie between none and all of them. -/
theorem given_bounds (reason : Bool) (points : Int) :
    min 0 points ≤ (given reason ⟨points⟩).halves ∧
      (given reason ⟨points⟩).halves ≤ max 0 points := by
  cases reason
  · exact ⟨Int.min_le_left _ _, Int.le_max_left _ _⟩
  · exact ⟨Int.min_le_right _ _, Int.le_max_right _ _⟩

/-- The signal of a length is from minus one to three points. -/
theorem ofLength_bounds (n : Int) : -2 ≤ (ofLength n).halves ∧ (ofLength n).halves ≤ 6 := by
  unfold ofLength
  split
  · decide
  · split
    · decide
    · split <;> decide

/-- The signal of a distance is from none to two points. -/
theorem ofDistance_bounds (distance : Option Nat) :
    0 ≤ (ofDistance distance).halves ∧ (ofDistance distance).halves ≤ 4 := by
  cases distance with
  | none => decide
  | some d =>
    simp only [ofDistance, proximityTiers, List.find?_cons, List.find?_nil]
    by_cases h20 : d ≤ 20
    · simp [h20]
    · by_cases h40 : d ≤ 40
      · simp [h20, h40]
      · by_cases h80 : d ≤ 80
        · simp [h20, h40, h80]
        · simp [h20, h40, h80, Score.zero]

end Signal

theorem Breakdown.total_halves (b : Breakdown) :
    b.total.halves = b.length.halves + b.numeric.halves + b.longNumeric.halves +
      b.exactLine.halves + b.lineKeyword.halves + b.assignment.halves +
      b.keywordProximity.halves + b.safety.halves + b.money.halves + b.phoneShape.halves := rfl

/-- The score of a candidate is a finite number. -/
theorem Breakdown.isFinite_total (s : Surroundings) (facts : LineFacts) (c : Candidate) :
    (ofCandidate s facts c).total.toBinary64.isFinite = true := by
  have hlength := Signal.ofLength_bounds c.length
  have hproximity := Signal.ofDistance_bounds (distanceToNearest (middle c.first c.last) s.centres)
  have hnumeric := Signal.given_bounds c.numeric 1
  have hlong := Signal.given_bounds (Signal.isLongNumber c) (-3)
  have hexact := Signal.given_bounds (facts.trimmed == c.code) 5
  have hword := Signal.given_bounds facts.hasCodeWord 4
  have hassigned := Signal.given_bounds (facts.assigns c.code) 3
  have hsafety := Signal.given_bounds s.hasSafetyKeyword 2
  have hmoney :=
    Signal.given_bounds (indicatorNear s.lower s.moneyIndicators c.first s.moneyRadius) (-4)
  have hphone := Signal.given_bounds (Signal.looksLikePhone c s.text s.phoneWindow) (-5)
  have htotal := total_halves (ofCandidate s facts c)
  simp only [ofCandidate] at htotal
  refine Score.isFinite_toBinary64 ?_ ?_ <;> rw [ofCandidate] <;> omega

/-! ### The scores of all candidates -/

namespace ScoredCandidate

/-- Scoring keeps the candidates and their order. -/
theorem ofAll_candidates (s : Surroundings) (ix : LineIndex) (cs : List Candidate) :
    (ofAll s ix cs).map candidate = cs := by
  induction cs generalizing ix with
  | nil => rfl
  | cons c cs ih => exact congrArg (c :: ·) (ih _)

/-- Each scored candidate has the sum of its own contributions as its score. -/
theorem exists_of_mem_ofAll {s : Surroundings} {ix : LineIndex} {cs : List Candidate}
    {x : ScoredCandidate} (h : x ∈ ofAll s ix cs) :
    x.score = x.breakdown.total ∧
      ∃ facts, x.breakdown = Breakdown.ofCandidate s facts x.candidate := by
  induction cs generalizing ix with
  | nil => cases h
  | cons c cs ih =>
    rcases List.mem_cons.mp h with rfl | h
    · exact ⟨rfl, _, rfl⟩
    · exact ih h

/-- Every score is a finite number. -/
theorem isFinite_score {s : Surroundings} {ix : LineIndex} {cs : List Candidate}
    {x : ScoredCandidate} (h : x ∈ ofAll s ix cs) : x.score.toBinary64.isFinite = true := by
  obtain ⟨hscore, facts, hbreakdown⟩ := exists_of_mem_ofAll h
  rw [hscore, hbreakdown]
  exact Breakdown.isFinite_total s facts x.candidate

end ScoredCandidate

end Passcode
