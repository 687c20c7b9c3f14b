import Passcode.Text.Basic
import Passcode.Text.Lowercase.Table

/-!
# Lowercase — the full form of a text, and the form that keeps every index

* `lower` is full lowercasing.  One character may become two (capital I with a dot above), and
  capital sigma becomes the final form at the end of a word: behind a cased character and not
  before one, the characters that case ignores being passed over.
* `lowerAligned` has one character for each character of the text (`length_lowerAligned`).  It is
  the full form where that has the right length, and else goes character by character and leaves
  those whose lowercase form is longer as they are.
-/

namespace Passcode.Text

/-- How far away from `n` its lowercase form lies. -/
def caseShift : List CaseStretch → Nat → Int
  | [], _ => 0
  | s :: rest, n =>
    if n < s.first then 0
    else if n ≤ s.last then
      if (n - s.first) % s.step = 0 then s.shift else 0
    else caseShift rest n

/-- The lowercase form of `c` where that is one character. -/
def lowerChar (c : Char) : Char :=
  Char.ofNat (c.toNat + caseShift lowercaseStretches c.toNat).toNat

/-- Capital I with a dot above, the one character whose lowercase form is two characters. -/
def dottedI : Char := '\u0130'

/-- The lowercase form of a character that stands alone. -/
def lowerForm (c : Char) : Text :=
  if c = dottedI then ['i', '\u0307'] else [lowerChar c]

/-- Capital sigma, whose lowercase form depends on what surrounds it. -/
def capitalSigma : Char := '\u03A3'

/-- The lowercase sigma that ends a word. -/
def finalSigma : Char := '\u03C2'

/-- `c` is cased and stops a search for a cased neighbour. -/
def isCased (c : Char) : Bool := casedRanges.covers c.toNat

/-- A search for a cased neighbour passes `c` over. -/
def isCaseIgnorable (c : Char) : Bool := caseIgnorableRanges.covers c.toNat

/-- The first character that is not passed over is cased. -/
def casedAhead : Text → Bool
  | [] => false
  | c :: cs => if isCaseIgnorable c then casedAhead cs else isCased c

/-- Lowercases a text; `casedBefore` says that the last character before it that is not passed
over is cased. -/
def lowerFrom : Bool → Text → Text
  | _, [] => []
  | casedBefore, c :: cs =>
    (if c = capitalSigma && casedBefore && !casedAhead cs then [finalSigma] else lowerForm c) ++
      lowerFrom (if isCaseIgnorable c then casedBefore else isCased c) cs

/-- The lowercase form of a text. -/
def lower (t : Text) : Text := lowerFrom false t

/-- The lowercase form of a character where that is one character, and the character itself
otherwise. -/
def lowerKept (c : Char) : Char :=
  if c = dottedI then c else lowerChar c

/-- The lowercase copy of a text in which each character keeps its index. -/
def lowerAligned (t : Text) : Text :=
  if (lower t).length = t.length then lower t else t.map lowerKept

/-! ### Small laws -/

theorem length_lowerAligned (t : Text) : (lowerAligned t).length = t.length := by
  unfold lowerAligned; split
  · assumption
  · simp

end Passcode.Text
