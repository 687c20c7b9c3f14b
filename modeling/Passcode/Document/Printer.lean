import Passcode.Binary64.Decimal
import Passcode.Document.Basic
import Passcode.Text.Quoted

/-!
# The written form of a document

`render` writes a document on one line as JSON.  Items are parted by a comma and a space, a key from
its value by a colon and a space, and the keys of a mapping are sorted by code points.  In a string
only the double quote, the backslash and the characters below the space are escaped, five of these
by a letter.
-/

namespace Passcode.Document

/-- One character inside a written string. -/
def escapedChar (c : Char) : Text :=
  if c = '"' || c = '\\' then ['\\', c]
  else if c = '\n' then ['\\', 'n']
  else if c = '\r' then ['\\', 'r']
  else if c = '\t' then ['\\', 't']
  else if c = '\x08' then ['\\', 'b']
  else if c = '\x0C' then ['\\', 'f']
  else if c.toNat < 0x20 then '\\' :: 'u' :: Text.hexDigits 4 c.toNat
  else [c]

/-- A string between double quotes. -/
def renderString (s : String) : Text :=
  '"' :: s.toList.flatMap escapedChar ++ ['"']

/-- The digits of an integer, behind a minus sign if it is negative. -/
def renderInt (n : Int) : Text :=
  Binary64.withSign (n < 0) (Binary64.digitsOf n.natAbs)

/-- A number with a point; the names of infinity and of no number are spelled out. -/
def renderFloat (x : Binary64) : Text :=
  match x with
  | .nan => "NaN".toList
  | .signed n r =>
    if r.val = topRank then Binary64.withSign n "Infinity".toList else x.text

/-- The texts, parted by a comma and a space. -/
def commaList : List Text → Text
  | [] => []
  | [t] => t
  | t :: ts => t ++ ',' :: ' ' :: commaList ts

/-- Keys in the order of their code points. -/
def keyLe (a b : String × Text) : Bool := decide (a.1 ≤ b.1)

mutual

/-- The written form of a document. -/
def render : Document → Text
  | .null => "null".toList
  | .bool true => "true".toList
  | .bool false => "false".toList
  | .int n => renderInt n
  | .float x => renderFloat x
  | .string s => renderString s
  | .list items => '[' :: commaList (renderItems items) ++ [']']
  | .mapping fields =>
    let written := (renderFields fields).mergeSort keyLe
    '\x7b' :: commaList (written.map (fun f => renderString f.1 ++ ':' :: ' ' :: f.2)) ++ ['\x7d']

/-- The written forms of the items of a list. -/
def renderItems : List Document → List Text
  | [] => []
  | d :: ds => render d :: renderItems ds

/-- The keys of a mapping with the written forms of their values. -/
def renderFields : Fields → List (String × Text)
  | [] => []
  | (key, value) :: rest => (key, render value) :: renderFields rest

end

end Passcode.Document
