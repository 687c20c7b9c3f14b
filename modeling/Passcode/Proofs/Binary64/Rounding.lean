import Mathlib.Order.Monotone.Basic
import Mathlib.Tactic.Ring
import Passcode.Binary64.Basic

/-!
# Rounding — the ladder climbs, and rounding to it keeps the order

* `units_strictMono`: a rung of greater rank lies strictly higher, within a stretch and across the
  end of one.
* `le_rankBelow_iff`: `rankBelow q` is the greatest rank whose rung is at `q` or below.
* `nearestRank_mono`: of two fractions with one denominator, the lesser is rounded to the lesser
  rank.  The two ends of a step are kept apart by the rank below the fraction; within one step the
  comparison with the middle decides, and a tie stands between its two outcomes.
-/

namespace Passcode.Binary64

/-! ### The ladder -/

theorem stretchSteps_eq : stretchSteps = 2 ^ 52 := by decide

theorem units_of_lt {r : Nat} (h : r < stretchSteps) : units r = r := if_pos h

/-- The rung `m` steps up the stretch number `q + 1`. -/
theorem units_stretch (q : Nat) {m : Nat} (hm : m < stretchSteps) :
    units ((q + 1) * stretchSteps + m) = (stretchSteps + m) * 2 ^ q := by
  have hpos : 0 < stretchSteps := by decide
  have hge : ¬ (q + 1) * stretchSteps + m < stretchSteps := by
    rw [Nat.succ_mul]; omega
  have hmod : ((q + 1) * stretchSteps + m) % stretchSteps = m := by
    rw [Nat.mul_comm, Nat.mul_add_mod, Nat.mod_eq_of_lt hm]
  have hdiv : ((q + 1) * stretchSteps + m) / stretchSteps = q + 1 := by
    rw [Nat.mul_comm, Nat.mul_add_div hpos, Nat.div_eq_of_lt hm, Nat.add_zero]
  rw [units, if_neg hge, hmod, hdiv, Nat.add_sub_cancel, Nat.shiftLeft_eq]

/-- A rank lies in the first stretch, or so many steps up a later one. -/
theorem rank_cases (r : Nat) :
    r < stretchSteps ∨ ∃ q m, m < stretchSteps ∧ r = (q + 1) * stretchSteps + m := by
  have hpos : 0 < stretchSteps := by decide
  rcases Nat.lt_or_ge r stretchSteps with h | h
  · exact .inl h
  · have hq : 0 < r / stretchSteps := Nat.div_pos h hpos
    refine .inr ⟨r / stretchSteps - 1, r % stretchSteps, Nat.mod_lt r hpos, ?_⟩
    rw [Nat.sub_add_cancel hq, Nat.mul_comm, Nat.div_add_mod]

/-- Each rung is above the one before it. -/
theorem units_lt_units_succ (r : Nat) : units r < units (r + 1) := by
  have hpos : 0 < stretchSteps := by decide
  rcases rank_cases r with h | ⟨q, m, hm, rfl⟩
  · rcases Nat.lt_or_ge (r + 1) stretchSteps with h' | h'
    · rw [units_of_lt h, units_of_lt h']; exact Nat.lt_succ_self r
    · have hr : r + 1 = (0 + 1) * stretchSteps + 0 := by omega
      rw [units_of_lt h, hr, units_stretch 0 hpos]; omega
  · rcases Nat.lt_or_ge (m + 1) stretchSteps with h' | h'
    · rw [Nat.add_assoc, units_stretch q hm, units_stretch q h']
      exact Nat.mul_lt_mul_of_pos_right (by omega) (Nat.two_pow_pos q)
    -- The last rung of a stretch: the next stretch starts one of its own steps higher.
    · have hr : (q + 1) * stretchSteps + m + 1 = (q + 1 + 1) * stretchSteps + 0 := by
        rw [Nat.succ_mul (q + 1)]; omega
      rw [hr, units_stretch q hm, units_stretch (q + 1) hpos]
      calc (stretchSteps + m) * 2 ^ q
          < (stretchSteps * 2) * 2 ^ q :=
            Nat.mul_lt_mul_of_pos_right (by omega) (Nat.two_pow_pos q)
        _ = (stretchSteps + 0) * 2 ^ (q + 1) := by ring

theorem units_strictMono : StrictMono units := strictMono_nat_of_lt_succ units_lt_units_succ

/-! ### The rank below a number of units -/

/-- The rank below `q`, and its rung, when `q` needs `s` bits more than a stretch has. -/
theorem rankBelow_eq {q : Nat} (hq : stretchSteps ≤ q) :
    rankBelow q = (q.log2 - 52 + 1) * stretchSteps + (q / 2 ^ (q.log2 - 52) - stretchSteps) ∧
      stretchSteps ≤ q / 2 ^ (q.log2 - 52) ∧ q / 2 ^ (q.log2 - 52) < 2 * stretchSteps := by
  have hne : q ≠ 0 := by rintro rfl; exact absurd hq (by decide)
  have hlog : 52 ≤ q.log2 := (Nat.le_log2 hne).mpr hq
  have hsplit : q.log2 = 52 + (q.log2 - 52) := by omega
  have hlow : stretchSteps ≤ q / 2 ^ (q.log2 - 52) := by
    rw [Nat.le_div_iff_mul_le (Nat.two_pow_pos _), stretchSteps_eq, ← Nat.pow_add, ← hsplit]
    exact Nat.log2_self_le hne
  have hhigh : q / 2 ^ (q.log2 - 52) < 2 * stretchSteps := by
    rw [Nat.div_lt_iff_lt_mul (Nat.two_pow_pos _)]
    calc q < 2 ^ (q.log2 + 1) := Nat.lt_log2_self
      _ = 2 ^ (52 + (q.log2 - 52) + 1) := by rw [← hsplit]
      _ = 2 * stretchSteps * 2 ^ (q.log2 - 52) := by rw [stretchSteps_eq]; ring
  refine ⟨?_, hlow, hhigh⟩
  rw [rankBelow, Nat.shiftRight_eq_div_pow, Nat.succ_mul]
  omega

theorem rankBelow_of_lt {q : Nat} (hq : q < stretchSteps) : rankBelow q = q := by
  have hlog : q.log2 - 52 = 0 := by
    rcases Nat.eq_zero_or_pos q with rfl | hpos
    · rfl
    · have := (Nat.log2_lt (Nat.ne_of_gt hpos)).mpr (stretchSteps_eq ▸ hq); omega
  simp only [rankBelow, hlog, Nat.zero_mul, Nat.zero_add, Nat.shiftRight_zero]

/-- The rung below a number is not above it. -/
theorem units_rankBelow_le (q : Nat) : units (rankBelow q) ≤ q := by
  rcases Nat.lt_or_ge q stretchSteps with h | h
  · rw [rankBelow_of_lt h, units_of_lt h]
  · obtain ⟨hr, hlow, hhigh⟩ := rankBelow_eq h
    rw [hr, units_stretch _ (by omega), Nat.add_sub_cancel' hlow]
    exact Nat.div_mul_le_self q _

/-- The next rung is above the number. -/
theorem lt_units_rankBelow_succ (q : Nat) : q < units (rankBelow q + 1) := by
  rcases Nat.lt_or_ge q stretchSteps with h | h
  · calc q = units q := (units_of_lt h).symm
      _ < units (q + 1) := units_lt_units_succ q
      _ = units (rankBelow q + 1) := by rw [rankBelow_of_lt h]
  · obtain ⟨hr, hlow, hhigh⟩ := rankBelow_eq h
    have hlt : q < (q / 2 ^ (q.log2 - 52) + 1) * 2 ^ (q.log2 - 52) := by
      have hm := Nat.mod_lt q (Nat.two_pow_pos (q.log2 - 52))
      have hd := Nat.div_add_mod' q (2 ^ (q.log2 - 52))
      rw [Nat.succ_mul]; omega
    refine Nat.lt_of_lt_of_le hlt (Nat.le_of_eq ?_)
    rw [hr, Nat.add_assoc]
    rcases Nat.lt_or_ge (q / 2 ^ (q.log2 - 52) - stretchSteps + 1) stretchSteps with h' | h'
    · rw [units_stretch _ h', ← Nat.add_assoc, Nat.add_sub_cancel' hlow]
    · have hend : q / 2 ^ (q.log2 - 52) + 1 = 2 * stretchSteps := by omega
      have hrank : (q.log2 - 52 + 1) * stretchSteps +
          (q / 2 ^ (q.log2 - 52) - stretchSteps + 1) =
            (q.log2 - 52 + 1 + 1) * stretchSteps + 0 := by
        rw [Nat.succ_mul (q.log2 - 52 + 1)]; omega
      rw [hrank, units_stretch _ (by decide), hend]
      ring

/-- `rankBelow q` is the greatest rank whose rung lies at `q` or below. -/
theorem le_rankBelow_iff {r q : Nat} : r ≤ rankBelow q ↔ units r ≤ q := by
  constructor
  · intro h
    exact Nat.le_trans (units_strictMono.monotone h) (units_rankBelow_le q)
  · intro h
    have hlt : units r < units (rankBelow q + 1) :=
      Nat.lt_of_le_of_lt h (lt_units_rankBelow_succ q)
    exact Nat.lt_succ_iff.mp (units_strictMono.lt_iff_lt.mp hlt)

theorem rankBelow_mono : Monotone rankBelow := fun a _ h =>
  le_rankBelow_iff.mpr (Nat.le_trans (units_rankBelow_le a) h)

/-! ### The nearest rank -/

/-- The middle of a step decides which end of it is nearer; in the middle, either may be taken. -/
theorem nearerRank_cases (low num den : Nat) :
    (2 * num < (units low + units (low + 1)) * den ∧ nearerRank low num den = low) ∨
    (2 * num = (units low + units (low + 1)) * den ∧
      (nearerRank low num den = low ∨ nearerRank low num den = low + 1)) ∨
    ((units low + units (low + 1)) * den < 2 * num ∧ nearerRank low num den = low + 1) := by
  unfold nearerRank
  generalize (units low + units (low + 1)) * den = middle
  cases h : compare (2 * num) middle with
  | lt => exact .inl ⟨Nat.compare_eq_lt.mp h, rfl⟩
  | gt => exact .inr (.inr ⟨Nat.compare_eq_gt.mp h, rfl⟩)
  | eq =>
    refine .inr (.inl ⟨Nat.compare_eq_eq.mp h, ?_⟩)
    dsimp only
    split
    · exact .inl rfl
    · exact .inr rfl

/-- Within one step, rounding keeps the order. -/
theorem nearerRank_mono (low den : Nat) {a b : Nat} (h : a ≤ b) :
    nearerRank low a den ≤ nearerRank low b den := by
  rcases Nat.lt_or_eq_of_le h with hlt | rfl
  · rcases nearerRank_cases low a den with ⟨-, ha⟩ | ⟨hm, ha | ha⟩ | ⟨hm, ha⟩ <;>
      rcases nearerRank_cases low b den with ⟨hm', hb⟩ | ⟨hm', hb | hb⟩ | ⟨hm', hb⟩ <;> omega
  · exact Nat.le_refl _

/-- The nearest rung is the one below or the next. -/
theorem nearestRank_bounds (num den : Nat) :
    rankBelow (num / den) ≤ nearestRank num den ∧
      nearestRank num den ≤ rankBelow (num / den) + 1 := by
  unfold nearestRank
  rcases nearerRank_cases (rankBelow (num / den)) num den with ⟨-, h⟩ | ⟨-, h | h⟩ | ⟨-, h⟩ <;>
    omega

/-- Rounding keeps the order of fractions with one denominator. -/
theorem nearestRank_mono (den : Nat) {a b : Nat} (h : a ≤ b) :
    nearestRank a den ≤ nearestRank b den := by
  have hlow : rankBelow (a / den) ≤ rankBelow (b / den) := rankBelow_mono (Nat.div_le_div_right h)
  rcases Nat.lt_or_eq_of_le hlow with hlt | heq
  · exact Nat.le_trans (nearestRank_bounds a den).2
      (Nat.le_trans hlt (nearestRank_bounds b den).1)
  · unfold nearestRank
    rw [heq]
    exact nearerRank_mono _ den h

end Passcode.Binary64
