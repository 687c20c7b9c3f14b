import Passcode.Proofs.Binary64.Order

/-!
# Sums — what is not below zero grows with both of its terms

A rung of the ladder is its own nearest rung (`nearestRank_units`).  So for numbers that are not
below zero, infinity included, there is one rule for where a sum lies (`position_add_of_nonneg`):
the units of the terms are added and rounded, and rounding takes what lies beyond the greatest
finite rung to infinity.

From it follow `add_mono`, that a sum keeps the order of both terms, and `le_add_right`, that adding
to a number does not make it less.
-/

namespace Passcode.Binary64

/-- A rung is its own nearest rung, over whatever denominator it is written. -/
theorem nearestRank_units_mul (r : Nat) {den : Nat} (hden : 0 < den) :
    nearestRank (units r * den) den = r := by
  have hstep : units r * den < units (r + 1) * den :=
    Nat.mul_lt_mul_of_pos_right (units_lt_units_succ r) hden
  have hmiddle : (units r + units (r + 1)) * den = units r * den + units (r + 1) * den :=
    Nat.add_mul _ _ _
  have hlow : rankBelow (units r * den / den) = r := by
    rw [Nat.mul_div_cancel _ hden]
    refine Nat.le_antisymm ?_ (le_rankBelow_iff.mpr (Nat.le_refl _))
    exact units_strictMono.le_iff_le.mp (units_rankBelow_le _)
  unfold nearestRank
  rw [hlow]
  rcases nearerRank_cases r (units r * den) den with ⟨-, h⟩ | ⟨hmid, -⟩ | ⟨hmid, -⟩
  · exact h
  · omega
  · omega

theorem nearestRank_units (r : Nat) : nearestRank (units r) 1 = r := by
  have h := nearestRank_units_mul r Nat.one_pos
  rwa [Nat.mul_one] at h

theorem roundedRank_units {r : Nat} (h : r ≤ topRank) : roundedRank 1 (units r) = r := by
  rw [roundedRank, nearestRank_units, Nat.min_eq_left h]

/-- What lies at infinity or beyond is rounded to it. -/
theorem roundedRank_of_top_le {q : Nat} (h : units topRank ≤ q) : roundedRank 1 q = topRank := by
  have hge := roundedRank_mono 1 h
  rw [roundedRank_units (Nat.le_refl _)] at hge
  exact Nat.le_antisymm (Nat.min_le_right _ _) hge

/-- The units of a number that is not below zero, infinity having a rung of its own. -/
def unitsOf (x : Binary64) : Nat := units (position x).toNat

theorem unitsOf_mono {x y : Binary64} (h : x.le y = true) : unitsOf x ≤ unitsOf y := by
  obtain ⟨-, -, hxy⟩ := le_iff.mp h
  exact units_strictMono.monotone (by omega)

section Nonneg

variable {x x' y y' : Binary64}

/-- The position of a number that is not below zero is its rank. -/
theorem exists_of_nonneg (h : zero.le x = true) :
    ∃ n r, x = .signed n r ∧ position x = r.val ∧ signedUnits n r.val = units r.val := by
  obtain ⟨-, hx, hpos⟩ := le_iff.mp h
  cases x with
  | nan => exact absurd rfl hx
  | signed n r =>
    refine ⟨n, r, rfl, ?_⟩
    cases n with
    | false => exact ⟨rfl, rfl⟩
    | true =>
      rw [position_zero, position, key_true] at hpos
      have hr : r.val = 0 := by omega
      rw [position, key_true, hr]
      exact ⟨rfl, rfl⟩

/-- **Where a sum lies**: the units of two numbers that are not below zero are added and rounded. -/
theorem position_add_of_nonneg (hx : zero.le x = true) (hy : zero.le y = true) :
    position (x.add y) = roundedRank 1 (unitsOf x + unitsOf y) := by
  obtain ⟨n, r, rfl, hxp, hxu⟩ := exists_of_nonneg hx
  obtain ⟨m, s, rfl, hyp, hyu⟩ := exists_of_nonneg hy
  have hxunits : unitsOf (.signed n r) = units r.val := by rw [unitsOf, hxp, Int.toNat_natCast]
  have hyunits : unitsOf (.signed m s) = units s.val := by rw [unitsOf, hyp, Int.toNat_natCast]
  rw [hxunits, hyunits]
  by_cases hr : r.val = topRank
  · -- An infinity with no minus sign keeps the sum at infinity.
    have hn : n = false := not_negative_of_infinite hr (le_iff.mp hx).2.2
    have hsame : (s.val = topRank && n != m) = false := by
      by_cases hs : s.val = topRank
      · simp [hn, not_negative_of_infinite hs (le_iff.mp hy).2.2]
      · simp [hs]
    simp only [add, if_pos hr, hsame]
    rw [roundedRank_of_top_le (by rw [hr]; exact Nat.le_add_right _ _), ← hr]
    exact hxp
  · by_cases hs : s.val = topRank
    · simp only [add, if_neg hr, if_pos hs]
      rw [roundedRank_of_top_le (by rw [hs]; exact Nat.le_add_left _ _), ← hs]
      exact hyp
    · have hsum : signedUnits n r.val + signedUnits m s.val =
          ((units r.val + units s.val : Nat) : Int) := by rw [hxu, hyu]; rfl
      rw [(position_add hr hs).2, hsum, decide_eq_false (by omega), key_false, Int.natAbs_natCast]

/-- Sums keep the order of both terms. -/
theorem add_mono (hx : zero.le x = true) (hy : zero.le y = true) (hxx' : x.le x' = true)
    (hyy' : y.le y' = true) : (x.add y).le (x'.add y') = true := by
  have hx' := le_trans hx hxx'
  have hy' := le_trans hy hyy'
  have hle : unitsOf x + unitsOf y ≤ unitsOf x' + unitsOf y' :=
    Nat.add_le_add (unitsOf_mono hxx') (unitsOf_mono hyy')
  refine le_iff.mpr ⟨(le_iff.mp (add_nonneg hx hy)).2.1, (le_iff.mp (add_nonneg hx' hy')).2.1, ?_⟩
  rw [position_add_of_nonneg hx hy, position_add_of_nonneg hx' hy']
  exact Int.ofNat_le.mpr (roundedRank_mono 1 hle)

/-- Adding what is not below zero does not make a number less. -/
theorem le_add_right (hx : zero.le x = true) (hy : zero.le y = true) :
    x.le (x.add y) = true := by
  obtain ⟨n, r, hxr, hxp, -⟩ := exists_of_nonneg hx
  have hunits : unitsOf x = units r.val := by rw [unitsOf, hxp, Int.toNat_natCast]
  have hself : roundedRank 1 (unitsOf x) = r.val := by
    rw [hunits, roundedRank_units (Nat.le_of_lt_succ r.isLt)]
  refine le_iff.mpr ⟨(le_iff.mp hx).2.1, (le_iff.mp (add_nonneg hx hy)).2.1, ?_⟩
  rw [position_add_of_nonneg hx hy, hxp, ← hself]
  exact Int.ofNat_le.mpr (roundedRank_mono 1 (Nat.le_add_right _ _))

end Nonneg

end Passcode.Binary64
