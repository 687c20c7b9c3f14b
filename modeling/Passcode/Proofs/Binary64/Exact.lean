import Passcode.Proofs.Binary64.Sums

/-!
# Exact — multiples of one half and their sums are not rounded

An integer of at most 53 bits, times a power of two that is not too great, is the height of a rung
(`exists_finite_rung`).  So half an integer of that size is a number of its own
(`exists_signed_halves`), which stands for it exactly (`IsHalves`), and the sum of two such numbers
is the number of the sum (`add_halves`).
-/

namespace Passcode.Binary64

/-! ### The heights of rungs -/

/-- An integer of at most 53 bits times a power of two is the height of a rung, if need be of one
above infinity. -/
theorem exists_rung {k : Nat} (hk : k < 2 * stretchSteps) (e : Nat) :
    ∃ r, units r = k * 2 ^ e := by
  induction e generalizing k with
  | zero =>
    rcases Nat.lt_or_ge k stretchSteps with h | h
    · exact ⟨k, by rw [units_of_lt h, Nat.pow_zero, Nat.mul_one]⟩
    · exact ⟨_, by rw [units_stretch 0 (m := k - stretchSteps) (by omega), Nat.add_sub_cancel' h]⟩
  | succ e ih =>
    rcases Nat.lt_or_ge k stretchSteps with h | h
    -- Too few bits for a later stretch: a factor of two moves from the power to the integer.
    · obtain ⟨r, hr⟩ := ih (k := k * 2) (by omega)
      exact ⟨r, by rw [hr, Nat.pow_succ']; exact Nat.mul_assoc _ _ _⟩
    · exact ⟨_, by
        rw [units_stretch (e + 1) (m := k - stretchSteps) (by omega), Nat.add_sub_cancel' h]⟩

/-- An integer of at most 53 bits times a power of two below infinity is the height of a rung. -/
theorem exists_finite_rung {k e : Nat} (hk : k < 2 * stretchSteps) (he : e + 2 ≤ 2047) :
    ∃ r, r < topRank ∧ units r = k * 2 ^ e := by
  obtain ⟨r, hr⟩ := exists_rung hk e
  have hbelow : units r < units ((e + 1 + 1) * stretchSteps + 0) := by
    calc units r = k * 2 ^ e := hr
      _ < 2 * stretchSteps * 2 ^ e := Nat.mul_lt_mul_of_pos_right hk (Nat.two_pow_pos e)
      _ = (stretchSteps + 0) * 2 ^ (e + 1) := by ring
      _ = units ((e + 1 + 1) * stretchSteps + 0) := (units_stretch (e + 1) (by decide)).symm
  have htop : (e + 1 + 1) * stretchSteps + 0 ≤ topRank := by
    rw [Nat.add_zero, topRank]
    exact Nat.mul_le_mul_right stretchSteps he
  exact ⟨r, Nat.lt_of_lt_of_le (units_strictMono.lt_iff_lt.mp hbelow) htop, hr⟩

/-- A rung is rounded to itself. -/
theorem nearest_units (n : Bool) (r : Fin (topRank + 1)) {den : Nat} (hden : 0 < den) :
    nearest n (units r.val * den) den = .signed n r := by
  have hmin : min r.val topRank = r.val := Nat.min_eq_left (Nat.le_of_lt_succ r.isLt)
  rw [nearest, nearestRank_units_mul r.val hden, capped]
  simp only [hmin]

/-! ### Halves -/

/-- The number is finite, and exactly that many halves. -/
def IsHalves (x : Binary64) (halves : Int) : Prop :=
  ∃ n r, x = .signed n r ∧ r.val < topRank ∧ 2 * signedUnits n r.val = halves * unitsPerOne

theorem signedUnits_eq_key (n : Bool) (r : Nat) : signedUnits n r = key n (units r) := rfl

theorem key_mul (n : Bool) (a p : Nat) : key n (a * p) = key n a * p := by
  cases n
  · rfl
  · rw [key_true, key_true, Int.neg_mul]; rfl

/-- The power of two that is one half, counted in units. -/
def halfExponent : Nat := 1073

/-- How many units make one half. -/
def unitsPerHalf : Nat := 2 ^ halfExponent

theorem unitsPerOne_eq : unitsPerOne = unitsPerHalf * 2 := by decide +kernel

theorem unitsPerHalf_pos : 0 < unitsPerHalf := Nat.two_pow_pos halfExponent

section Halves

variable {a b : Int}

/-- Half an integer of at most 53 bits is a number, on the rung of that height. -/
theorem exists_signed_halves (ha : a.natAbs < 2 * stretchSteps) :
    ∃ r : Fin (topRank + 1), r.val < topRank ∧ units r.val = a.natAbs * unitsPerHalf ∧
      ofFraction (a < 0) a.natAbs 2 = .signed (a < 0) r := by
  obtain ⟨r, hr, hunits⟩ := exists_finite_rung ha (e := halfExponent) (by decide)
  rw [← unitsPerHalf] at hunits
  refine ⟨⟨r, by omega⟩, hr, hunits, ?_⟩
  rw [ofFraction, unitsPerOne_eq, ← Nat.mul_assoc, ← hunits]
  exact nearest_units _ ⟨r, by omega⟩ (by decide)

theorem signedUnits_halves {r : Nat} (h : units r = a.natAbs * unitsPerHalf) :
    signedUnits (a < 0) r = a * (unitsPerHalf : Int) := by
  rw [signedUnits_eq_key, h, key_mul, key_natAbs]

/-- **Exactness**: half an integer of at most 53 bits is not rounded. -/
theorem isHalves_ofFraction (ha : a.natAbs < 2 * stretchSteps) :
    IsHalves (ofFraction (a < 0) a.natAbs 2) a := by
  obtain ⟨r, hr, hunits, heq⟩ := exists_signed_halves ha
  refine ⟨_, r, heq, hr, ?_⟩
  rw [signedUnits_halves hunits, unitsPerOne_eq]
  push_cast
  ring

theorem ofFraction_zero (den : Nat) : ofFraction false 0 den = zero := by
  rw [ofFraction, Nat.zero_mul, nearest, nearestRank_zero, zero]

/-- **Exact sums**: the sum of two such numbers is the number of the sum. -/
theorem add_halves (ha : a.natAbs < 2 * stretchSteps) (hb : b.natAbs < 2 * stretchSteps)
    (hab : (a + b).natAbs < 2 * stretchSteps) :
    add (ofFraction (a < 0) a.natAbs 2) (ofFraction (b < 0) b.natAbs 2) =
      ofFraction (a + b < 0) (a + b).natAbs 2 := by
  obtain ⟨r, hr, hrunits, hreq⟩ := exists_signed_halves ha
  obtain ⟨s, hs, hsunits, hseq⟩ := exists_signed_halves hb
  obtain ⟨t, ht, htunits, hteq⟩ := exists_signed_halves hab
  have hsum : signedUnits (a < 0) r.val + signedUnits (b < 0) s.val =
      (a + b) * (unitsPerHalf : Int) := by
    rw [signedUnits_halves hrunits, signedUnits_halves hsunits, Int.add_mul]
  have hpos : (0 : Int) < (unitsPerHalf : Int) := Int.natCast_pos.mpr unitsPerHalf_pos
  rw [hreq, hseq]
  simp only [add, if_neg (Nat.ne_of_lt hr), if_neg (Nat.ne_of_lt hs), hsum]
  by_cases hzero : a + b = 0
  -- A sum of zero has no minus sign, for its terms do not both have one.
  · have hsigns : (decide (a < 0) && decide (b < 0)) = false := by
      rw [Bool.and_eq_false_iff, decide_eq_false_iff_not, decide_eq_false_iff_not]
      omega
    rw [hzero, Int.zero_mul, if_pos rfl, hsigns]
    exact (ofFraction_zero 2).symm
  · have hne : (a + b) * (unitsPerHalf : Int) ≠ 0 :=
      Int.mul_ne_zero hzero (Int.ne_of_gt hpos)
    have hsign : decide ((a + b) * (unitsPerHalf : Int) < 0) = decide (a + b < 0) :=
      decide_eq_decide.mpr
        ⟨fun h => Int.lt_of_mul_lt_mul_right (by rwa [Int.zero_mul]) (Int.le_of_lt hpos),
          fun h => Int.mul_neg_of_neg_of_pos h hpos⟩
    have habs : ((a + b) * (unitsPerHalf : Int)).natAbs = units t.val * 1 := by
      rw [Int.natAbs_mul, Int.natAbs_natCast, htunits, Nat.mul_one]
    rw [if_neg hne, hsign, habs, hteq]
    exact nearest_units _ t Nat.one_pos

end Halves

end Passcode.Binary64
