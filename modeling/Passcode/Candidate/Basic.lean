import Passcode.Text.Basic

/-!
# Candidate — a piece of a message that may be a code

A candidate has its code, the span of the message in which it was found, and the way in which it was
found.  Both ends of a span belong to it.  The code of a group of digits lacks the separators that
its span holds.
-/

namespace Passcode

/-- The way in which a candidate was found. -/
inductive Source where
  /-- A run of digits. -/
  | numeric
  /-- Groups of digits, joined by single separators. -/
  | grouped
  /-- A token of letters and digits. -/
  | alnum
deriving DecidableEq, Repr

/-- The name of a source in explanations. -/
def Source.name : Source → String
  | .numeric => "numeric"
  | .grouped => "grouped"
  | .alnum => "alnum"

/-- A possible code. -/
structure Candidate where
  code : Text
  /-- The index of the first character. -/
  first : Int
  /-- The index of the last character. -/
  last : Int
  /-- The code holds nothing but digits. -/
  numeric : Bool
  source : Source
deriving DecidableEq, Repr

/-- The number of characters of the code, which the span may exceed. -/
def Candidate.length (c : Candidate) : Nat := c.code.length

end Passcode
