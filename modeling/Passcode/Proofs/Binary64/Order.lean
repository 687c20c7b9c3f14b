import Passcode.Proofs.Binary64.Rounding

/-!
# Order — sums and quotients of numbers keep the order of their terms

`position x` is the signed rank of `x`; a comparison holds exactly between two values that are
numbers, in the order of their positions (`le_iff`, `lt_iff`).

An operation works out an exact signed number of units and rounds its magnitude.  Rounding is
monotone and keeps zero, so it keeps the order of signed magnitudes (`key_map_le`), and with it

* `div_le_div`: dividing by a number above zero, infinity included, keeps the order of finite
  numbers;
* `add_le_add`: adding a number, infinite or not, keeps the order of finite numbers.
-/

namespace Passcode.Binary64

/-! ### Positions -/

/-- The signed rank of a number, and 0 for what is none. -/
def position : Binary64 → Int
  | .nan => 0
  | .signed n r => key n r

/-- Two numbers are compared by their places in the order, if both are numbers. -/
theorem le_iff {x y : Binary64} :
    x.le y = true ↔ x ≠ .nan ∧ y ≠ .nan ∧ position x ≤ position y := by
  cases x <;> cases y <;> simp [le, position]

/-- As for `le`, with the places apart. -/
theorem lt_iff {x y : Binary64} :
    x.lt y = true ↔ x ≠ .nan ∧ y ≠ .nan ∧ position x < position y := by
  cases x <;> cases y <;> simp [lt, position]

/-- Each number is at most itself, and only what is no number is not. -/
theorem le_refl {x : Binary64} (h : x ≠ .nan) : x.le x = true := le_iff.mpr ⟨h, h, Int.le_refl _⟩

theorem le_trans {x y z : Binary64} (h : x.le y = true) (h' : y.le z = true) : x.le z = true := by
  obtain ⟨hx, -, hxy⟩ := le_iff.mp h
  obtain ⟨-, hz, hyz⟩ := le_iff.mp h'
  exact le_iff.mpr ⟨hx, hz, Int.le_trans hxy hyz⟩

theorem zero_ne_nan : zero ≠ .nan := nofun

theorem position_zero : position zero = 0 := rfl

theorem one_ne_nan : one ≠ .nan := nofun

/-- A number is finite exactly if its place is between those of the infinite ones. -/
theorem isFinite_iff {x : Binary64} :
    x.isFinite = true ↔ x ≠ .nan ∧ -(topRank : Int) < position x ∧ position x < topRank := by
  cases x with
  | nan => simp [isFinite]
  | signed n r =>
    have hr := r.isLt
    cases n <;> simp [isFinite, position, key] <;> omega

/-! ### Signed magnitudes -/

theorem key_zero (n : Bool) : key n 0 = 0 := by cases n <;> rfl

@[simp] theorem key_true (r : Nat) : key true r = -(r : Int) := rfl

@[simp] theorem key_false (r : Nat) : key false r = r := rfl

/-- A monotone function that keeps zero keeps the order of signed magnitudes. -/
theorem key_map_le {f : Nat → Nat} (hf : ∀ a b, a ≤ b → f a ≤ f b) (h0 : f 0 = 0) {n m : Bool}
    {a b : Nat} (h : key n a ≤ key m b) : key n (f a) ≤ key m (f b) := by
  cases n <;> cases m <;> simp only [key_true, key_false] at h ⊢
  · have := hf a b (by omega); omega
  · obtain ⟨rfl, rfl⟩ : a = 0 ∧ b = 0 := by omega
    omega
  · omega
  · have := hf b a (by omega); omega

/-- An integer is the signed magnitude of its sign and its absolute value. -/
theorem key_natAbs (i : Int) : key (i < 0) i.natAbs = i := by
  by_cases h : i < 0
  · rw [key, if_pos (decide_eq_true h)]; omega
  · rw [key, if_neg (fun hd => h (of_decide_eq_true hd))]; omega

theorem nearestRank_zero (den : Nat) : nearestRank 0 den = 0 := by
  have hlow : rankBelow (0 / den) = 0 := by rw [Nat.zero_div, rankBelow_of_lt (by decide)]
  have hstep : 0 < units 0 + units (0 + 1) := by
    have := units_lt_units_succ 0; omega
  unfold nearestRank
  rw [hlow]
  rcases nearerRank_cases 0 0 den with ⟨-, h⟩ | ⟨hmid, -⟩ | ⟨hmid, -⟩
  · exact h
  · -- The middle of a step lies above zero, so there is no tie unless the denominator is zero.
    obtain rfl : den = 0 := by
      rcases Nat.eq_zero_or_pos den with h | h
      · exact h
      · have := Nat.mul_pos hstep h; omega
    unfold nearerRank
    rw [Nat.mul_zero, Nat.mul_zero]
    rfl
  · omega

/-- The rank to which a number of units is rounded, infinity being the last. -/
def roundedRank (den num : Nat) : Nat := min (nearestRank num den) topRank

/-- Rounding keeps the order of what is rounded. -/
theorem roundedRank_mono (den : Nat) {a b : Nat} (h : a ≤ b) :
    roundedRank den a ≤ roundedRank den b := by
  have := nearestRank_mono den h
  simp only [roundedRank]; omega

theorem roundedRank_zero (den : Nat) : roundedRank den 0 = 0 := by
  simp [roundedRank, nearestRank_zero]

/-- Rounding keeps the order of signed fractions with one denominator. -/
theorem nearest_le_nearest {n m : Bool} {a b : Nat} (den : Nat) (h : key n a ≤ key m b) :
    (nearest n a den).le (nearest m b den) = true :=
  le_iff.mpr ⟨nofun, nofun, key_map_le (fun _ _ => roundedRank_mono den) (roundedRank_zero den) h⟩

/-- Fractions of one denominator are rounded in their order, signs included. -/
theorem ofFraction_le_ofFraction {n m : Bool} {a b : Nat} (den : Nat) (h : key n a ≤ key m b) :
    (ofFraction n a den).le (ofFraction m b den) = true :=
  nearest_le_nearest den
    (key_map_le (fun _ _ => Nat.mul_le_mul_right unitsPerOne) (Nat.zero_mul _) h)

/-- The signed units of numbers are in the order of the numbers. -/
theorem signedUnits_le {n m : Bool} {r s : Nat} (h : key n r ≤ key m s) :
    signedUnits n r ≤ signedUnits m s :=
  key_map_le (fun _ _ h => units_strictMono.monotone h) rfl h

/-! ### Quotients -/

/-- A number that is not at most zero is above zero: it has no minus sign, and a rank. -/
theorem exists_of_not_le_zero {x : Binary64} (hx : x ≠ .nan) (h : x.le zero = false) :
    ∃ s, x = .signed false s ∧ 0 < s.val := by
  cases x with
  | nan => exact absurd rfl hx
  | signed m s =>
    have hpos : ¬ key m s ≤ 0 := fun hle => by
      rw [le_iff.mpr ⟨hx, zero_ne_nan, hle⟩] at h; cases h
    cases m with
    | true => rw [key_true] at hpos; omega
    | false => rw [key_false] at hpos; exact ⟨s, rfl, by omega⟩

/-- A finite number divided by a number above zero, which may be infinity. -/
theorem div_finite {n : Bool} {r s : Fin (topRank + 1)} (hr : r.val ≠ topRank) (hs : 0 < s.val) :
    div (.signed n r) (.signed false s) =
      if s.val = topRank then capped n 0 else ofFraction n (units r) (units s) := by
  have hn : (n != false) = n := by cases n <;> rfl
  simp only [div, hn, if_neg hr, if_neg (Nat.ne_of_gt hs)]

/-- **Quotients**: dividing finite numbers by a number above zero keeps their order. -/
theorem div_le_div {x y scale : Binary64} (hx : x.isFinite = true) (hy : y.isFinite = true)
    (hs : scale ≠ .nan) (hpos : scale.le zero = false) (h : x.le y = true) :
    (x.div scale).le (y.div scale) = true := by
  obtain ⟨s, rfl, hs0⟩ := exists_of_not_le_zero hs hpos
  obtain ⟨hxn, hyn, hxy⟩ := le_iff.mp h
  cases x with
  | nan => exact absurd rfl hxn
  | signed n r =>
    cases y with
    | nan => exact absurd rfl hyn
    | signed m t =>
      have hr : r.val ≠ topRank := Nat.ne_of_lt (of_decide_eq_true hx)
      have ht : t.val ≠ topRank := Nat.ne_of_lt (of_decide_eq_true hy)
      rw [div_finite hr hs0, div_finite ht hs0]
      by_cases htop : s.val = topRank
      · rw [if_pos htop, if_pos htop]
        refine le_iff.mpr ⟨nofun, nofun, ?_⟩
        show key n (min 0 topRank) ≤ key m (min 0 topRank)
        rw [Nat.zero_min, key_zero, key_zero]
      · rw [if_neg htop, if_neg htop]
        exact ofFraction_le_ofFraction (units s) (signedUnits_le hxy)

/-! ### Sums -/

/-- The exact sum of two finite numbers decides where their sum lies. -/
theorem position_add {n m : Bool} {r s : Fin (topRank + 1)} (hr : r.val ≠ topRank)
    (hs : s.val ≠ topRank) :
    add (.signed n r) (.signed m s) ≠ .nan ∧
      position (add (.signed n r) (.signed m s)) =
        key (signedUnits n r + signedUnits m s < 0)
          (roundedRank 1 (signedUnits n r + signedUnits m s).natAbs) := by
  simp only [add, if_neg hr, if_neg hs]
  generalize signedUnits n r + signedUnits m s = sum
  by_cases h : sum = 0
  · subst h
    refine ⟨nofun, ?_⟩
    show key (n && m) (min 0 topRank) = key false (roundedRank 1 0)
    rw [Nat.zero_min, roundedRank_zero, key_zero, key_zero]
  · rw [if_neg h]
    exact ⟨nofun, rfl⟩

/-- **Sums**: adding a number, infinite or not, to finite numbers keeps their order. -/
theorem add_le_add {x y b : Binary64} (hx : x.isFinite = true) (hy : y.isFinite = true)
    (hb : b ≠ .nan) (h : x.le y = true) : (x.add b).le (y.add b) = true := by
  obtain ⟨hxn, hyn, hxy⟩ := le_iff.mp h
  cases b with
  | nan => exact absurd rfl hb
  | signed k s =>
    cases x with
    | nan => exact absurd rfl hxn
    | signed n r =>
      cases y with
      | nan => exact absurd rfl hyn
      | signed m t =>
        have hr : r.val ≠ topRank := Nat.ne_of_lt (of_decide_eq_true hx)
        have ht : t.val ≠ topRank := Nat.ne_of_lt (of_decide_eq_true hy)
        by_cases hs : s.val = topRank
        · simp only [add, if_neg hr, if_neg ht, if_pos hs]
          exact le_refl nofun
        · obtain ⟨hl, hlp⟩ := position_add (n := n) (m := k) hr hs
          obtain ⟨hg, hgp⟩ := position_add (n := m) (m := k) ht hs
          refine le_iff.mpr ⟨hl, hg, ?_⟩
          rw [hlp, hgp]
          refine key_map_le (fun _ _ => roundedRank_mono 1) (roundedRank_zero 1) ?_
          rw [key_natAbs, key_natAbs]
          have := signedUnits_le hxy
          omega

/-- Minus infinity is below zero. -/
theorem not_negative_of_infinite {n : Bool} {r : Fin (topRank + 1)} (hr : r.val = topRank)
    (h : position zero ≤ position (.signed n r)) : n = false := by
  cases n with
  | false => rfl
  | true =>
    rw [position, key_true, hr, position_zero] at h
    exact absurd h (by decide)

/-- The sum of two numbers that are not below zero is one again. -/
theorem add_nonneg {x y : Binary64} (hx : zero.le x = true) (hy : zero.le y = true) :
    zero.le (x.add y) = true := by
  obtain ⟨-, hxn, hxp⟩ := le_iff.mp hx
  obtain ⟨-, hyn, hyp⟩ := le_iff.mp hy
  cases x with
  | nan => exact absurd rfl hxn
  | signed n r =>
    cases y with
    | nan => exact absurd rfl hyn
    | signed m s =>
      by_cases hr : r.val = topRank
      · -- Infinities of one sign: a number that is not below zero is not minus infinity.
        have hsame : (s.val = topRank && n != m) = false := by
          by_cases hs : s.val = topRank
          · simp [not_negative_of_infinite hr hxp, not_negative_of_infinite hs hyp]
          · simp [hs]
        simp only [add, if_pos hr, hsame]
        exact hx
      · by_cases hs : s.val = topRank
        · simp only [add, if_neg hr, if_pos hs]
          exact hy
        · obtain ⟨hn, hp⟩ := position_add (n := n) (m := m) hr hs
          refine le_iff.mpr ⟨zero_ne_nan, hn, ?_⟩
          have h1 : 0 ≤ signedUnits n r := signedUnits_le (n := false) (r := 0) hxp
          have h2 : 0 ≤ signedUnits m s := signedUnits_le (n := false) (r := 0) hyp
          have hnot : ¬ signedUnits n r + signedUnits m s < 0 := by omega
          rw [hp, decide_eq_false hnot, key_false, position_zero]
          exact Int.natCast_nonneg _

end Passcode.Binary64
