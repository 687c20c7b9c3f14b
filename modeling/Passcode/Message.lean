import Passcode.Text.Blank
import Passcode.Text.Lowercase

/-!
# Message — the normal form in which a message is read

A raw message is brought into its normal form in four steps (`Message.ofText`).  Zero-width marks
are deleted, so that they cannot split a code; the decimal digits of four other scripts become the
plain ones; blanks are trimmed off both ends and every run of blanks inside becomes one space; and
the result is cut to the length limit, the blanks at the cut being trimmed again.

The lowercase copy has one character for each character of the text, so an index into the one is
an index into the other.
-/

namespace Passcode

namespace Text

/-- `c` is one of the four marks of no width. -/
def isZeroWidth (c : Char) : Bool :=
  c = '\u200B' || c = '\u200C' || c = '\u200D' || c = '\uFEFF'

/-- The zeros of the digit blocks that are folded: Arabic-Indic, extended Arabic-Indic, N'Ko and
fullwidth. -/
def foldedZeros : List Nat := [0x660, 0x6F0, 0x7C0, 0xFF10]

/-- The plain digit that a digit of a folded block stands for, and any other character as it is. -/
def foldDigit (c : Char) : Char :=
  match foldedZeros.find? (fun z => z ≤ c.toNat && c.toNat < z + 10) with
  | some z => Char.ofNat (48 + (c.toNat - z))
  | none => c

/-- The text with every folded digit as a plain one. -/
def foldDigits (t : Text) : Text := t.map foldDigit

/-- The normal form of a text, without a length limit. -/
def canonical (raw : Text) : Text :=
  trim (squeeze (foldDigits (raw.filter (fun c => !isZeroWidth c))))

/-- Cuts a text that is longer than the limit, and trims the blanks at the cut.  A negative limit
counts from the end. -/
def cut (limit : Option Int) (t : Text) : Text :=
  match limit with
  | none => t
  | some n => if n < t.length then trimEnd (slice t 0 n) else t

end Text

/-- A message in its normal form. -/
structure Message where
  /-- The normal form; every span of a candidate is a span of it. -/
  text : Text
  /-- The lowercase copy, index for index. -/
  lower : Text
  /-- The normal form differs from the raw message. -/
  changed : Bool
deriving DecidableEq, Repr

namespace Message

/-- The normal form of a raw message under a length limit. -/
def ofText (limit : Option Int) (raw : Text) : Message :=
  let text := Text.cut limit (Text.canonical raw)
  { text, lower := Text.lowerAligned text, changed := text != raw }

/-- Nothing is left of the message. -/
def isEmpty (m : Message) : Bool := m.text.isEmpty

end Message

end Passcode
