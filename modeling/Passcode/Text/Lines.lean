import Passcode.Text.Basic

/-!
# Lines — where a text breaks

* `unifyBreaks` writes each of the three line ends of files (line feed, carriage return, and the
  pair of them) as a line feed.
* `splitLines` cuts a text at every character that ends a line, the separators of information and
  the line and paragraph separators included; a break at the end opens no further line.
-/

namespace Passcode.Text

/-- Writes every line end of a file as a line feed. -/
def unifyBreaks : Text → Text
  | [] => []
  | '\r' :: '\n' :: cs => '\n' :: unifyBreaks cs
  | c :: cs => (if c = '\r' then '\n' else c) :: unifyBreaks cs

/-- `c` ends a line. -/
def isLineEnd (c : Char) : Bool :=
  (0xA ≤ c.toNat && c.toNat ≤ 0xD) || (0x1C ≤ c.toNat && c.toNat ≤ 0x1E) || c.toNat = 0x85 ||
    c.toNat = 0x2028 || c.toNat = 0x2029

/-- The lines of a text behind the characters `opened`, the last of them first, that the current
line has already. -/
def splitLinesFrom : Text → Text → List Text
  | opened, [] => if opened.isEmpty then [] else [opened.reverse]
  | opened, '\r' :: '\n' :: cs => opened.reverse :: splitLinesFrom [] cs
  | opened, c :: cs =>
    if isLineEnd c then opened.reverse :: splitLinesFrom [] cs
    else splitLinesFrom (c :: opened) cs

/-- The lines of a text, without their ends. -/
def splitLines (t : Text) : List Text := splitLinesFrom [] t

end Passcode.Text
