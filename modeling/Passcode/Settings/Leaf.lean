import Passcode.Binary64.Decimal
import Passcode.Document.Reader
import Passcode.Settings.Reading
import Passcode.Text.Blank

/-!
# Leaves — a generous conversion

The conversion of this module takes for a number what can be taken for one.  An integer may be
written as an integer, a truth value, a number with a point whose fraction is zero, or a string of
digits; a number may be written as any of these, with a fraction or an exponent, or as the name of
infinity or of no number.  A name must be a string.

A string of digits is brought into a bare form first (`Leaf.bare?`): the white space around it, a
plus sign, the zeros at the start or behind a minus sign there, a fraction of zeros and single
underscores are taken out, in this order.  What is left has to be a numeral without a needless zero,
behind a minus sign if there is one (`Leaf.bareInt?`).
-/

namespace Passcode

namespace Leaf

/-! ### Texts of numbers -/

/-- `c` is white space around a number: a blank that is not a separator of information. -/
def isPadding (c : Char) : Bool :=
  Text.isBlank c && !(0x1C ≤ c.toNat && c.toNat ≤ 0x1F)

/-- The text without the white space around it. -/
def unpadded (t : Text) : Text :=
  ((t.dropWhile isPadding).reverse.dropWhile isPadding).reverse

/-- The text behind its sign, and whether the sign is a minus. -/
def splitSign : Text → Bool × Text
  | '-' :: cs => (true, cs)
  | '+' :: cs => (false, cs)
  | cs => (false, cs)

/-- Underscores stand singly and between other characters. -/
def underscoresInside : Text → Bool
  | [] => true
  | '_' :: _ => false
  | c :: cs => go c cs
where
  /-- Underscores stand singly and inside, behind the character `before`. -/
  go (before : Char) : Text → Bool
    | [] => before != '_'
    | c :: cs => !(before == '_' && c == '_') && go c cs

/-- The text without its underscores, if they stand singly and inside. -/
def withoutUnderscores? (t : Text) : Option Text :=
  if underscoresInside t then some (t.filter (· != '_')) else none

/-- The text without a plus sign at its start, behind which no minus sign may stand. -/
def withoutPlus? : Text → Option Text
  | '+' :: '-' :: _ => none
  | '+' :: cs => some cs
  | cs => some cs

/-- `c` is one of the digits 1 to 9. -/
def isLeadingDigit (c : Char) : Bool := '1' ≤ c && c ≤ '9'

/-- The text without the zeros and underscores at its start, of which `before` is the last one
before it.  They end at a digit or a minus sign; the last of them is kept before a point and at the
end of the text. -/
def behindZeros? (before : Char) : Text → Option Text
  | [] => some [before]
  | c :: cs =>
    if c = '0' || c = '_' then behindZeros? c cs
    else if isLeadingDigit c || c = '-' then some (c :: cs)
    else if c = '.' then some (before :: c :: cs)
    else none

/-- The text without needless zeros at its start, which has to be a digit or a minus sign. -/
def withoutZeros? : Text → Option Text
  | [] => none
  | c :: cs =>
    if c = '0' then behindZeros? c cs
    else if isLeadingDigit c || c = '-' then some (c :: cs)
    else none

/-- The text without needless zeros at its start, a minus sign there being kept before them. -/
def withoutSignedZeros? : Text → Option Text
  | '-' :: cs => (withoutZeros? cs).map ('-' :: ·)
  | cs => withoutZeros? cs

/-- The text without the point and the zeros behind it, if there are any and nothing else is
there. -/
def withoutZeroFraction (t : Text) : Text :=
  match t.dropWhile (· != '.') with
  | '.' :: c :: cs => if (c :: cs).all (· == '0') then t.takeWhile (· != '.') else t
  | _ => t

/-- The bare form of a text that writes an integer. -/
def bare? (t : Text) : Option Text :=
  (withoutPlus? (unpadded t)).bind fun signed =>
    (withoutSignedZeros? signed).bind fun digits => withoutUnderscores? (withoutZeroFraction digits)

/-- The text is a row of digits that starts with no zero, or zero itself. -/
def isNumeral : Text → Bool
  | [] => false
  | c :: cs => if c = '0' then cs.isEmpty else (c :: cs).all Document.isDigit

/-- The integer of a bare form: a numeral, behind a minus sign if there is one. -/
def bareInt? : Text → Option Int
  | '-' :: ds => if isNumeral ds then some (-(Document.numberOf ds : Int)) else none
  | ds => if isNumeral ds then some (Document.numberOf ds : Int) else none

/-- The greatest length of a bare form that is read. -/
def longestBare : Nat := 4300

/-- The integer that a text writes. -/
def intOfText (t : Text) : Except FaultKind Int :=
  match bare? t with
  | none => .error .intParsing
  | some digits =>
    match bareInt? digits with
    | none => .error .intParsing
    | some n => if longestBare < digits.length then .error .intParsingSize else .ok n

/-- The magnitude that a text writes: digits on at least one side of a point that may be missing,
and an exponent if there is any. -/
def magnitude? (negative : Bool) (t : Text) : Option Binary64 :=
  let whole := t.takeWhile Document.isDigit
  let rest := t.drop whole.length
  let (fraction, rest) := match rest with
    | '.' :: cs =>
      let ds := cs.takeWhile Document.isDigit
      (ds, cs.drop ds.length)
    | cs => ([], cs)
  if whole.isEmpty && fraction.isEmpty then none
  else
    match Document.readPower rest with
    | (power, []) =>
      some (.ofDecimal negative (Document.numberOf (whole ++ fraction))
        (power.getD 0 - (fraction.length : Int)))
    | _ => none

/-- The number that a text without underscores writes. -/
def plainNumber? (t : Text) : Option Binary64 :=
  let (negative, body) := splitSign t
  let name := body.map Char.toLower
  if name = "inf".toList || name = "infinity".toList then some (.infinity negative)
  else if name = "nan".toList then some .nan
  else magnitude? negative body

/-- The number that a text writes, with white space around it or with underscores in it. -/
def number? (t : Text) : Option Binary64 :=
  match plainNumber? (unpadded t) with
  | some x => some x
  | none => (withoutUnderscores? t).bind plainNumber?

/-! ### Conversions -/

/-- The integer that a number with a point is, if it is one of less than 64 bits. -/
def intOfFloat (x : Binary64) : Except FaultKind Int :=
  match x with
  | .nan => .error .finiteNumber
  | .signed negative r =>
    if r.val = topRank then .error .finiteNumber
    else if Binary64.units r % Binary64.unitsPerOne ≠ 0 then .error .intFromFloat
    else
      let n := Binary64.units r / Binary64.unitsPerOne
      if 1 <<< 63 ≤ n then .error .intParsingSize
      else .ok (if negative then -(n : Int) else n)

/-- The integer of a leaf. -/
def int : Document → Except FaultKind Int
  | .int n => .ok n
  | .bool b => .ok (if b then 1 else 0)
  | .float x => intOfFloat x
  | .string s => intOfText s.toList
  | _ => .error .intType

/-- The number of a leaf. -/
def number : Document → Except FaultKind Binary64
  | .float x => .ok x
  | .int n =>
    let x := Binary64.ofInt n
    if x.isInfinite then .error .floatType else .ok x
  | .bool b => .ok (if b then .one else .zero)
  | .string s =>
    match number? s.toList with
    | some x => .ok x
    | none => .error .floatParsing
  | _ => .error .floatType

/-- The string of a leaf. -/
def name : Document → Except FaultKind Text
  | .string s => .ok s.toList
  | _ => .error .stringType

end Leaf

/-- The conversion that takes whatever can be taken for a number. -/
def Conversion.generous : Conversion :=
  { int := Leaf.int, number := Leaf.number, name := Leaf.name }

/-- The settings by the document of the user, if there is one, and by the locale of the environment,
each leaf being taken for whatever it can be. -/
def Settings.load (override : Option Document) (envLocale : Option Text) :
    Except SettingsFault Settings :=
  loadBy .generous override envLocale

end Passcode
