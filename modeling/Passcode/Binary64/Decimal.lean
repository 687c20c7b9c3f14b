import Passcode.Binary64.Basic
import Passcode.Text.Basic

/-!
# Decimal texts of numbers

* `ofDecimal` is the number nearest to a decimal.
* `shortest` finds the fewest digits that read back as the number: it tries one digit, two, and so
  on, and of the two decimals beside the number on each grid it keeps those that round to it.  Of
  two that do, the nearer one is taken, and of two equally near ones the even one.
* `text` writes those digits.  A number from 10^-4 up to 10^16 is written without an exponent, and
  with at least one digit behind the point; any other with an exponent of at least two digits.
* `fixedTwo` writes two digits behind the point, a half going to the even neighbour.
-/

namespace Passcode.Binary64

/-! ### Digits -/

/-- The decimal digits of a number, of which zero has one. -/
def digitsOf (n : Nat) : Text := Nat.toDigits 10 n

/-- The quotient rounded to the nearest number, a half to the even one. -/
def roundDiv (num den : Nat) : Nat :=
  let q := num / den
  match compare (2 * (num % den)) den with
  | .lt => q
  | .gt => q + 1
  | .eq => if q % 2 = 0 then q else q + 1

/-! ### Reading -/

/-- The number nearest to `digits * 10 ^ exponent`.  Far beyond either end of the ladder the power
is not worked out. -/
def ofDecimal (negative : Bool) (digits : Nat) (exponent : Int) : Binary64 :=
  if digits = 0 then capped negative 0
  else
    let point := exponent + (digitsOf digits).length
    if 400 < point then infinity negative
    else if point < -400 then capped negative 0
    else if 0 ≤ exponent then ofFraction negative (digits * Nat.pow 10 exponent.toNat) 1
    else ofFraction negative digits (Nat.pow 10 (-exponent).toNat)

/-! ### The shortest decimal -/

/-- The exponent of the leading decimal digit of `num / den`, for `num` and `den` that are not
zero. -/
def leadingExponent (num den : Nat) : Int :=
  if den ≤ num then ((digitsOf (num / den)).length : Int) - 1
  else
    let d := (digitsOf (den / num)).length
    if den ≤ num * Nat.pow 10 (d - 1) then -((d : Int) - 1) else -(d : Int)

/-- A decimal, as the number of its digits and the exponent of the last of them. -/
structure Decimal where
  digits : Nat
  exponent : Int
deriving DecidableEq, Repr

/-- The decimals of `places` digits beside the number of rank `r`, of which those that round to it
are kept; of two, the better. -/
def onGrid (r places : Nat) : Option Decimal :=
  let u := units r
  let exponent := leadingExponent u unitsPerOne - (places : Int) + 1
  -- The number is `u * up / (unitsPerOne * down)` steps of the grid.
  let up := Nat.pow 10 (-exponent).toNat
  let down := Nat.pow 10 exponent.toNat
  let steps := u * up / (unitsPerOne * down)
  -- The ends of the stretch that rounds to the number, in halves of a unit.
  let first := units (r - 1) + u
  let last := u + units (r + 1)
  let inside (d : Nat) : Bool :=
    let place := 2 * (d * down * unitsPerOne)
    if r % 2 = 0 then first * up ≤ place && place ≤ last * up
    else first * up < place && place < last * up
  match inside steps, inside (steps + 1) with
  | false, false => none
  | true, false => some ⟨steps, exponent⟩
  | false, true => some ⟨steps + 1, exponent⟩
  | true, true => some ⟨roundDiv (u * up) (unitsPerOne * down), exponent⟩

/-- The shortest decimal that rounds to the finite number of rank `r`, which is not zero. -/
def shortest (r : Nat) : Decimal :=
  ((List.range 17).findSome? (fun k => onGrid r (k + 1))).getD ⟨0, 0⟩

/-! ### Writing -/

/-- The text without the zeros at its end. -/
def trimZeros (ds : Text) : Text := (ds.reverse.dropWhile (· == '0')).reverse

/-- The digits `ds` with a decimal point behind the first `point` of them. -/
def positional (ds : Text) (point : Int) : Text :=
  if point ≤ 0 then '0' :: '.' :: List.replicate (-point).toNat '0' ++ ds
  else if (ds.length : Int) ≤ point then
    ds ++ List.replicate (point.toNat - ds.length) '0' ++ ['.', '0']
  else ds.take point.toNat ++ '.' :: ds.drop point.toNat

/-- The digits `ds` with a point behind the first and an exponent. -/
def scientific (ds : Text) (exponent : Int) : Text :=
  let mantissa := match ds with
    | [] => []
    | [d] => [d]
    | d :: rest => d :: '.' :: rest
  let size := digitsOf exponent.natAbs
  mantissa ++ 'e' :: (if exponent < 0 then '-' else '+') ::
    (if size.length < 2 then '0' :: size else size)

/-- The text of a magnitude that is finite. -/
def magnitudeText (r : Nat) : Text :=
  if r = 0 then ['0', '.', '0']
  else
    let d := shortest r
    let all := digitsOf d.digits
    let point := (all.length : Int) + d.exponent
    let ds := trimZeros all
    if -4 < point && point ≤ 16 then positional ds point else scientific ds (point - 1)

/-- A minus sign before the text of a negative number. -/
def withSign (negative : Bool) (t : Text) : Text := if negative then '-' :: t else t

/-- The shortest text that reads back as the number. -/
def text : Binary64 → Text
  | .nan => "nan".toList
  | .signed n r => withSign n (if r.val = topRank then "inf".toList else magnitudeText r)

/-- The text of the number with two digits behind the point. -/
def fixedTwo : Binary64 → Text
  | .nan => "nan".toList
  | .signed n r =>
    withSign n <|
      if r.val = topRank then "inf".toList
      else
        let hundredths := roundDiv (units r * 100) unitsPerOne
        digitsOf (hundredths / 100) ++
          ['.', Nat.digitChar (hundredths / 10 % 10), Nat.digitChar (hundredths % 10)]

end Passcode.Binary64
