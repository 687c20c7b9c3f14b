import Passcode.Text.Basic
import Passcode.Text.Ranges

/-!
# Blank — white space, and the two ways to take it out

Twenty-nine characters are blank (`isBlank`): the line and paragraph breaks, the separators of
information, and every space, the wide and the unbreakable ones included.  The four zero-width
marks are not.

* `trim` takes the blanks off both ends, `trimEnd` off the end alone.
* `squeeze` writes each maximal run of blanks as one plain space.
-/

namespace Passcode.Text

/-- The blank characters. -/
def blankRanges : Ranges :=
  [(0x9, 0xD), (0x1C, 0x20), (0x85, 0x85), (0xA0, 0xA0), (0x1680, 0x1680), (0x2000, 0x200A),
   (0x2028, 0x2029), (0x202F, 0x202F), (0x205F, 0x205F), (0x3000, 0x3000)]

/-- `c` is white space. -/
def isBlank (c : Char) : Bool := blankRanges.covers c.toNat

/-- The text without the blanks at its start. -/
def trimStart (t : Text) : Text := t.dropWhile isBlank

/-- The text without the blanks at its end. -/
def trimEnd (t : Text) : Text := (t.reverse.dropWhile isBlank).reverse

/-- The text without the blanks at both ends. -/
def trim (t : Text) : Text := trimEnd (trimStart t)

/-- Writes each maximal run of blanks as one plain space; `afterBlank` says that the character
before the text is a blank whose space is written already. -/
def squeezeFrom : Bool → Text → Text
  | _, [] => []
  | afterBlank, c :: cs =>
    if isBlank c then
      if afterBlank then squeezeFrom true cs else ' ' :: squeezeFrom true cs
    else
      c :: squeezeFrom false cs

/-- Writes each maximal run of blanks as one plain space. -/
def squeeze (t : Text) : Text := squeezeFrom false t

end Passcode.Text
