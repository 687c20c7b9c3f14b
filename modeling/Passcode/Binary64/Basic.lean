/-!
# Binary64 — the numbers with 53 significant bits

The magnitudes of these numbers form a ladder: zero, the 2^52 equal steps of 2^-1074 above it, and
then stretch after stretch of 2^52 steps, each twice as wide as the stretch before.  A magnitude is
given by its *rank*, the number of its rung; `topRank` is infinity.  Counted in the least step,
2^-1074, the rung of rank `r` lies at `units r`, a natural number, so all arithmetic here is exact
arithmetic on natural numbers, followed by one rounding.

* Rounding (`nearestRank`) takes the nearer of the two neighbouring rungs, and of two equally near
  ones the one of even rank.  What would round to the rung above the greatest finite one, or beyond,
  becomes infinite.
* Order is the order of signed ranks (`key`); the two zeros are equal, and nothing compares with
  `nan`.
-/

namespace Passcode

/-- The number of steps in a stretch of equal steps. -/
def stretchSteps : Nat := 1 <<< 52

/-- The rank of infinity. -/
def topRank : Nat := 2047 * stretchSteps

/-- A number with 53 significant bits, infinity, or no number at all. -/
inductive Binary64 where
  /-- Not a number. -/
  | nan
  /-- The number of a sign and a rank. -/
  | signed (negative : Bool) (rank : Fin (topRank + 1))
deriving DecidableEq, Repr

namespace Binary64

/-! ### The ladder -/

/-- The rung of rank `r`, counted in steps of 2^-1074. -/
def units (r : Nat) : Nat :=
  if r < stretchSteps then r
  else (stretchSteps + r % stretchSteps) <<< (r / stretchSteps - 1)

/-- The greatest rank whose rung lies at `q` units or below. -/
def rankBelow (q : Nat) : Nat :=
  let shift := q.log2 - 52
  shift * stretchSteps + (q >>> shift)

/-- Of the rank `low` and the next one, the rank of the rung nearer to `num / den` units. -/
def nearerRank (low num den : Nat) : Nat :=
  match compare (2 * num) ((units low + units (low + 1)) * den) with
  | .lt => low
  | .gt => low + 1
  | .eq => if low % 2 = 0 then low else low + 1

/-- The rank of the rung nearest to `num / den` units. -/
def nearestRank (num den : Nat) : Nat := nearerRank (rankBelow (num / den)) num den

/-- The number of a sign and a rank, ranks beyond infinity being infinity. -/
def capped (negative : Bool) (rank : Nat) : Binary64 :=
  .signed negative ⟨min rank topRank, by omega⟩

/-- The number nearest to `num / den` units. -/
def nearest (negative : Bool) (num den : Nat) : Binary64 :=
  capped negative (nearestRank num den)

/-- How many units make one. -/
def unitsPerOne : Nat := 1 <<< 1074

/-- The number nearest to the fraction `num / den`. -/
def ofFraction (negative : Bool) (num den : Nat) : Binary64 :=
  nearest negative (num * unitsPerOne) den

/-- The number nearest to an integer. -/
def ofInt (n : Int) : Binary64 := ofFraction (n < 0) n.natAbs 1

/-! ### Kinds -/

/-- Zero without a sign. -/
def zero : Binary64 := capped false 0

/-- One. -/
def one : Binary64 := ofInt 1

/-- The infinity of a sign. -/
def infinity (negative : Bool) : Binary64 := capped negative topRank

/-- The number is one of the two zeros. -/
def isZero : Binary64 → Bool
  | .nan => false
  | .signed _ r => r.val = 0

/-- The number is one of the two infinities. -/
def isInfinite : Binary64 → Bool
  | .nan => false
  | .signed _ r => r.val = topRank

/-- The value is neither infinite nor `nan`. -/
def isFinite : Binary64 → Bool
  | .nan => false
  | .signed _ r => r.val < topRank

/-! ### Order -/

/-- The rank with its sign, which orders the numbers. -/
def key (negative : Bool) (rank : Nat) : Int := if negative then -(rank : Int) else rank

/-- The first number is less than the second. -/
def lt : Binary64 → Binary64 → Bool
  | .signed n r, .signed m s => key n r < key m s
  | _, _ => false

/-- The first number is at most the second. -/
def le : Binary64 → Binary64 → Bool
  | .signed n r, .signed m s => key n r ≤ key m s
  | _, _ => false

/-! ### Arithmetic -/

/-- The signed number of units of a finite number. -/
def signedUnits (negative : Bool) (rank : Nat) : Int :=
  if negative then -(units rank : Int) else units rank

/-- The sum, rounded once.  A sum of zero is negative only if both terms are. -/
def add : Binary64 → Binary64 → Binary64
  | .signed n r, .signed m s =>
    if r.val = topRank then
      if s.val = topRank && n != m then .nan else .signed n r
    else if s.val = topRank then .signed m s
    else
      let sum := signedUnits n r + signedUnits m s
      if sum = 0 then capped (n && m) 0 else nearest (sum < 0) sum.natAbs 1
  | _, _ => .nan

/-- The quotient, rounded once. -/
def div : Binary64 → Binary64 → Binary64
  | .signed n r, .signed m s =>
    let negative := n != m
    if r.val = topRank then
      if s.val = topRank then .nan else infinity negative
    else if s.val = topRank then capped negative 0
    else if s.val = 0 then
      if r.val = 0 then .nan else infinity negative
    else ofFraction negative (units r) (units s)
  | _, _ => .nan

end Binary64

end Passcode
