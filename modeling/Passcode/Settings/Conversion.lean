import Passcode.Binary64.Basic
import Passcode.Document.Basic
import Passcode.Text.Basic

/-!
# Conversion — what a leaf of a document is taken for

Settings are integers, numbers and names.  What else than these may stand for them in a document, a
truth value for a number or a string of digits, is up to a `Conversion`, which says for each leaf
what it is taken for or what is wrong with it.  All conversions leave a leaf as it is that has the
kind that is asked for (`Conversion.Keeps`).

`Conversion.intAtLeast`, `Conversion.between` and `Conversion.above` convert a leaf and check its
bounds.  A bound refuses a number that compares beyond it, so that what is no number passes every
bound.
-/

namespace Passcode

/-- What is wrong with one place of a document. -/
inductive FaultKind where
  /-- No integer can be written like this. -/
  | intType
  /-- The string does not write an integer. -/
  | intParsing
  /-- The number has a fraction. -/
  | intFromFloat
  /-- The string has too many digits, or the number is too great for an integer that was written
  with a point. -/
  | intParsingSize
  /-- The number is infinite or no number where an integer is needed. -/
  | finiteNumber
  /-- No number can be written like this. -/
  | floatType
  /-- The string does not write a number. -/
  | floatParsing
  /-- It is not a string. -/
  | stringType
  | greaterThan
  | greaterThanEqual
  | lessThanEqual
  /-- A section is not a mapping. -/
  | modelType
  /-- The key is not declared. -/
  | extraForbidden
  /-- A declared key is not there. -/
  | missing
deriving DecidableEq, Repr

/-- What the leaves of a document are taken for. -/
structure Conversion where
  /-- The integer of a leaf. -/
  int : Document → Except FaultKind Int
  /-- The number of a leaf. -/
  number : Document → Except FaultKind Binary64
  /-- The string of a leaf. -/
  name : Document → Except FaultKind Text

namespace Conversion

/-- A leaf that has the kind that is asked for is left as it is. -/
structure Keeps (c : Conversion) : Prop where
  int (n : Int) : c.int (.int n) = .ok n
  number (x : Binary64) : c.number (.float x) = .ok x
  name (s : String) : c.name (.string s) = .ok s.toList

variable (c : Conversion)

/-- The integer of a leaf, which must be at least `least`. -/
def intAtLeast (least : Nat) (d : Document) : Except FaultKind Nat :=
  match c.int d with
  | .error kind => .error kind
  | .ok n => if n < least then .error .greaterThanEqual else .ok n.toNat

/-- The number of a leaf, which must not lie beyond 0 or 1. -/
def between (d : Document) : Except FaultKind Binary64 :=
  match c.number d with
  | .error kind => .error kind
  | .ok x =>
    if Binary64.one.lt x then .error .lessThanEqual
    else if x.lt .zero then .error .greaterThanEqual
    else .ok x

/-- The number of a leaf, which must not be zero or less. -/
def above (d : Document) : Except FaultKind Binary64 :=
  match c.number d with
  | .error kind => .error kind
  | .ok x => if x.le .zero then .error .greaterThan else .ok x

end Conversion

end Passcode
