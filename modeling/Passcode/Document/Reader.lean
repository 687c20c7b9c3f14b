import Passcode.Binary64.Decimal
import Passcode.Document.Basic

/-!
# Reading a document

`ofText?` reads the JSON text of one document.  A number with neither a point nor an exponent is an
integer; any other is the nearest number with 53 significant bits.  When a key comes twice, its last
value stands.  A text that is not one document gives none.

Each step reads from the front of the text and returns what is left.  The nesting is bounded by the
number of characters, which is the fuel of the readers of values, items and fields.
-/

namespace Passcode.Document

/-- The text behind the blanks that JSON knows. -/
def skipSpace (t : Text) : Text :=
  t.dropWhile (fun c => c = ' ' || c = '\t' || c = '\n' || c = '\r')

/-- The text behind `word`, if it starts with it. -/
def behind? : Text → Text → Option Text
  | [], t => some t
  | _, [] => none
  | w :: ws, c :: cs => if w = c then behind? ws cs else none

/-- `c` is one of the digits 0 to 9. -/
def isDigit (c : Char) : Bool := '0' ≤ c && c ≤ '9'

/-- The number that a row of digits writes. -/
def numberOf (ds : Text) : Nat := ds.foldl (fun n c => 10 * n + (c.toNat - 48)) 0

/-! ### Strings -/

/-- The value of a hexadecimal digit. -/
def hexValue? (c : Char) : Option Nat :=
  if isDigit c then some (c.toNat - 48)
  else if 'a' ≤ c && c ≤ 'f' then some (c.toNat - 87)
  else if 'A' ≤ c && c ≤ 'F' then some (c.toNat - 55)
  else none

/-- The number that four hexadecimal digits write. -/
def hexFour? (a b c d : Char) : Option Nat := do
  let a ← hexValue? a
  let b ← hexValue? b
  let c ← hexValue? c
  let d ← hexValue? d
  return ((a * 16 + b) * 16 + c) * 16 + d

/-- The character that a letter behind a backslash stands for. -/
def escaped? (c : Char) : Option Char :=
  if c = '"' || c = '\\' || c = '/' then some c
  else if c = 'n' then some '\n'
  else if c = 'r' then some '\r'
  else if c = 't' then some '\t'
  else if c = 'b' then some '\x08'
  else if c = 'f' then some '\x0C'
  else none

/-- Adds a 16-bit unit to a string that is read, the last character first.  `high` is the first half
of a pair that waits for its second half. -/
def withUnit (done : Text) (high : Option Nat) (u : Nat) : Text × Option Nat :=
  match high with
  | some h =>
    if 0xDC00 ≤ u && u < 0xE000 then
      (Char.ofNat (0x10000 + (h - 0xD800) * 0x400 + (u - 0xDC00)) :: done, none)
    else if 0xD800 ≤ u && u < 0xDC00 then ('\uFFFD' :: done, some u)
    else (Char.ofNat u :: '\uFFFD' :: done, none)
  | none =>
    if 0xD800 ≤ u && u < 0xDC00 then (done, some u)
    else if 0xDC00 ≤ u && u < 0xE000 then ('\uFFFD' :: done, none)
    else (Char.ofNat u :: done, none)

/-- The characters read so far, a half pair that got no second half being replaced. -/
def closed (done : Text) (high : Option Nat) : Text :=
  if high.isSome then '\uFFFD' :: done else done

/-- Reads the characters of a string up to its closing quote. -/
def readChars (done : Text) (high : Option Nat) : Text → Option (String × Text)
  | [] => none
  | '"' :: rest => some (String.ofList (closed done high).reverse, rest)
  | '\\' :: 'u' :: a :: b :: c :: d :: rest =>
    match hexFour? a b c d with
    | some u =>
      let next := withUnit done high u
      readChars next.1 next.2 rest
    | none => none
  | '\\' :: e :: rest =>
    match escaped? e with
    | some c => readChars (c :: closed done high) none rest
    | none => none
  | c :: rest =>
    if c.toNat < 0x20 || c = '\\' then none
    else readChars (c :: closed done high) none rest

/-! ### Numbers -/

/-- Reads an exponent, with its sign. -/
def readExponent (t : Text) : Option (Int × Text) :=
  let (negative, t) := match t with
    | '-' :: cs => (true, cs)
    | '+' :: cs => (false, cs)
    | cs => (false, cs)
  let ds := t.takeWhile isDigit
  if ds.isEmpty then none
  else
    let n : Int := numberOf ds
    some (if negative then -n else n, t.drop ds.length)

/-- The fraction behind a decimal point, empty where there is none. -/
def readFraction : Text → Text × Text
  | '.' :: cs =>
    let ds := cs.takeWhile isDigit
    if ds.isEmpty then ([], '.' :: cs) else (ds, cs.drop ds.length)
  | cs => ([], cs)

/-- The exponent behind its letter, none where there is none. -/
def readPower : Text → Option Int × Text
  | c :: cs =>
    if c = 'e' || c = 'E' then
      match readExponent cs with
      | some (n, rest) => (some n, rest)
      | none => (none, c :: cs)
    else (none, c :: cs)
  | [] => (none, [])

/-- Reads a number behind its sign. -/
def readMagnitude (negative : Bool) (t : Text) : Option (Document × Text) :=
  let whole := match t with
    | '0' :: _ => ['0']
    | _ => t.takeWhile isDigit
  if whole.isEmpty then none
  else
    let (fraction, t) := readFraction (t.drop whole.length)
    let (power, t) := readPower t
    if fraction.isEmpty && power.isNone then
      let n : Int := numberOf whole
      some (.int (if negative then -n else n), t)
    else
      let exponent := power.getD 0 - (fraction.length : Int)
      some (.float (.ofDecimal negative (numberOf (whole ++ fraction)) exponent), t)

/-! ### Words -/

/-- The words that stand for a value. -/
def words : List (Text × Document) :=
  [("null".toList, .null), ("true".toList, .bool true), ("false".toList, .bool false),
   ("NaN".toList, .float .nan), ("Infinity".toList, .float (.infinity false)),
   ("-Infinity".toList, .float (.infinity true))]

/-- Reads a word that stands for a value. -/
def readWord (t : Text) : Option (Document × Text) :=
  words.findSome? (fun w => (behind? w.1 t).map (fun rest => (w.2, rest)))

/-! ### Values -/

mutual

/-- Reads one value from the front of a text. -/
def readValue : Nat → Text → Option (Document × Text)
  | 0, _ => none
  | fuel + 1, t =>
    match skipSpace t with
    | '"' :: cs => (readChars [] none cs).map (fun r => (.string r.1, r.2))
    | '[' :: cs =>
      match skipSpace cs with
      | ']' :: rest => some (.list [], rest)
      | cs => (readItems fuel [] cs).map (fun r => (.list r.1, r.2))
    | '\x7b' :: cs =>
      match skipSpace cs with
      | '\x7d' :: rest => some (.mapping [], rest)
      | cs => (readFields fuel [] cs).map (fun r => (.mapping r.1, r.2))
    | cs =>
      match readWord cs with
      | some r => some r
      | none =>
        match cs with
        | '-' :: ds => readMagnitude true ds
        | ds => readMagnitude false ds

/-- Reads the items of a list, behind those that are read, up to the closing bracket. -/
def readItems : Nat → List Document → Text → Option (List Document × Text)
  | 0, _, _ => none
  | fuel + 1, done, t =>
    match readValue fuel t with
    | none => none
    | some (d, rest) =>
      match skipSpace rest with
      | ',' :: cs => readItems fuel (d :: done) cs
      | ']' :: cs => some ((d :: done).reverse, cs)
      | _ => none

/-- Reads the fields of a mapping, behind those that are read, up to the closing brace. -/
def readFields : Nat → Fields → Text → Option (Fields × Text)
  | 0, _, _ => none
  | fuel + 1, done, t =>
    match skipSpace t with
    | '"' :: cs =>
      match readChars [] none cs with
      | none => none
      | some (key, rest) =>
        match skipSpace rest with
        | ':' :: cs =>
          match readValue fuel cs with
          | none => none
          | some (value, rest) =>
            match skipSpace rest with
            | ',' :: cs => readFields fuel (done.put key value) cs
            | '\x7d' :: cs => some (done.put key value, cs)
            | _ => none
        | _ => none
    | _ => none

end

/-- The document that a text writes, if it writes one and nothing else. -/
def ofText? (t : Text) : Option Document :=
  match readValue (t.length + 1) t with
  | some (d, rest) => if (skipSpace rest).isEmpty then some d else none
  | none => none

end Passcode.Document
