import Passcode.Text.Basic

/-!
# Encodings — from bytes to text and back

Five encodings are read (`Encoding.decode`): UTF-8, UTF-8 behind a byte order mark that is dropped,
ASCII, Latin 1, and UTF-16, whose byte order mark says which byte of a pair comes first.

A decoder stops at the first bytes that encode nothing and says where they are and what is wrong
with them (`Flaw`).  In UTF-8 these are the bytes of the longest beginning of a character that
stands there; in UTF-16 they are a pair of bytes, or all that is left when the text breaks off.
-/

namespace Passcode

/-- A way to write text as bytes. -/
inductive Encoding where
  | utf8
  /-- UTF-8, behind a byte order mark if there is one. -/
  | utf8Marked
  | ascii
  | latin1
  /-- UTF-16, behind a byte order mark. -/
  | utf16
deriving DecidableEq, Repr

/-- Bytes that encode nothing. -/
structure Flaw where
  /-- The name of the encoding. -/
  encoding : String
  /-- The first of the bytes. -/
  byte : Nat
  /-- The index of the first of the bytes. -/
  position : Nat
  /-- The number of the bytes. -/
  count : Nat
  reason : String
deriving DecidableEq, Repr

/-- The words for bytes that encode nothing. -/
def Flaw.message (f : Flaw) : String :=
  "'" ++ f.encoding ++ "' codec can't decode " ++
    (if f.count = 1 then
      "byte 0x" ++ String.ofList (Nat.toDigits 16 (f.byte / 16) ++ Nat.toDigits 16 (f.byte % 16)) ++
        " in position " ++ toString f.position
    else
      "bytes in position " ++ toString f.position ++ "-" ++
        toString (f.position + f.count - 1)) ++
    ": " ++ f.reason

/-- Why bytes are not read as text. -/
inductive DecodeFault where
  | flaw (flaw : Flaw)
  /-- Pairs of bytes without the mark that says which byte comes first. -/
  | noByteOrderMark
deriving DecidableEq, Repr

/-- The bytes of a text in UTF-8. -/
def Text.utf8Bytes (t : Text) : List UInt8 := t.flatMap String.utf8EncodeChar

namespace Encoding

/-! ### Names -/

/-- The name of an encoding as names are compared: in lowercase, each run of other characters than
letters, digits and full stops being one underscore, and none at the ends. -/
def nameForm (name : Text) : Text :=
  let kept (c : Char) : Bool := c.isAlphanum || c = '.'
  let rec go (gap : Bool) (done : Text) : Text → Text
    | [] => done.reverse
    | c :: cs =>
      if kept c then
        let start := if gap && !done.isEmpty then '_' :: done else done
        go false (c.toLower :: start) cs
      else go true done cs
  go false [] name

/-- The encodings under their names. -/
def names : List (String × Encoding) :=
  [("utf_8", .utf8), ("utf8", .utf8), ("u8", .utf8), ("utf", .utf8), ("cp65001", .utf8),
   ("utf8_ucs2", .utf8), ("utf8_ucs4", .utf8),
   ("utf_8_sig", .utf8Marked),
   ("ascii", .ascii), ("us_ascii", .ascii), ("us", .ascii), ("646", .ascii), ("cp367", .ascii),
   ("ibm367", .ascii), ("csascii", .ascii), ("iso646_us", .ascii), ("iso_ir_6", .ascii),
   ("ansi_x3.4_1968", .ascii), ("ansi_x3_4_1968", .ascii), ("ansi_x3.4_1986", .ascii),
   ("iso_646.irv_1991", .ascii),
   ("latin_1", .latin1), ("latin1", .latin1), ("latin", .latin1), ("l1", .latin1),
   ("iso_8859_1", .latin1), ("iso8859_1", .latin1), ("iso8859", .latin1), ("8859", .latin1),
   ("cp819", .latin1), ("ibm819", .latin1), ("csisolatin1", .latin1), ("iso_ir_100", .latin1),
   ("iso_8859_1_1987", .latin1),
   ("utf_16", .utf16), ("utf16", .utf16), ("u16", .utf16)]

/-- The encoding of a name. -/
def ofName? (name : Text) : Option Encoding :=
  (names.find? (fun n => n.1.toList == nameForm name)).map Prod.snd

/-! ### UTF-8 -/

/-- The byte continues a character. -/
def continues (b : UInt8) : Bool := 0x80 ≤ b && b < 0xC0

/-- The byte may be the second of a character whose first byte is `first`. -/
def secondFits (first b : UInt8) : Bool :=
  continues b &&
    (if first = 0xE0 then 0xA0 ≤ b
    else if first = 0xED then b < 0xA0
    else if first = 0xF0 then 0x90 ≤ b
    else if first = 0xF4 then b < 0x90
    else true)

/-- The low bits of a byte that continues a character. -/
def tailBits (b : UInt8) : Nat := b.toNat % 64

/-- Bytes that encode nothing in UTF-8. -/
def utf8Flaw (first : UInt8) (position count : Nat) (reason : String) : DecodeFault :=
  .flaw { encoding := "utf-8", byte := first.toNat, position, count, reason }

/-- The byte starts no character. -/
def badStart (first : UInt8) (position : Nat) : DecodeFault :=
  utf8Flaw first position 1 "invalid start byte"

/-- Behind `count` bytes of a character stands one that does not continue it. -/
def badTail (first : UInt8) (position count : Nat) : DecodeFault :=
  utf8Flaw first position count "invalid continuation byte"

/-- The bytes end behind `count` bytes of a character. -/
def brokenOff (first : UInt8) (position count : Nat) : DecodeFault :=
  utf8Flaw first position count "unexpected end of data"

/-- Puts a character before a text that is decoded. -/
def putChar (n : Nat) (rest : Except DecodeFault Text) : Except DecodeFault Text :=
  rest.map (Char.ofNat n :: ·)

/-- The text of bytes in UTF-8, the first of which has index `pos`. -/
def utf8From (pos : Nat) : List UInt8 → Except DecodeFault Text
  | [] => .ok []
  | a :: rest =>
    if a < 0x80 then putChar a.toNat (utf8From (pos + 1) rest)
    else if a < 0xC2 || 0xF5 ≤ a then .error (badStart a pos)
    else
      match rest with
      | [] => .error (brokenOff a pos 1)
      | b :: rest =>
        if !secondFits a b then .error (badTail a pos 1)
        else if a < 0xE0 then
          putChar ((a.toNat % 32) * 64 + tailBits b) (utf8From (pos + 2) rest)
        else
          match rest with
          | [] => .error (brokenOff a pos 2)
          | c :: rest =>
            if !continues c then .error (badTail a pos 2)
            else if a < 0xF0 then
              putChar (((a.toNat % 16) * 64 + tailBits b) * 64 + tailBits c)
                (utf8From (pos + 3) rest)
            else
              match rest with
              | [] => .error (brokenOff a pos 3)
              | d :: rest =>
                if !continues d then .error (badTail a pos 3)
                else
                  putChar ((((a.toNat % 8) * 64 + tailBits b) * 64 + tailBits c) * 64 + tailBits d)
                    (utf8From (pos + 4) rest)

/-- The byte order mark in UTF-8. -/
def mark : List UInt8 := [0xEF, 0xBB, 0xBF]

/-- The text of bytes in UTF-8, less a byte order mark at their start.  Bytes that break off within
a mark are no text, and positions count from behind the mark. -/
def utf8MarkedFrom (bytes : List UInt8) : Except DecodeFault Text :=
  if mark.isPrefixOf bytes then utf8From 0 (bytes.drop mark.length)
  else if bytes.isPrefixOf mark then .ok []
  else utf8From 0 bytes

/-! ### Single bytes -/

/-- The text of bytes in ASCII, the first of which has index `pos`. -/
def asciiFrom (pos : Nat) : List UInt8 → Except DecodeFault Text
  | [] => .ok []
  | b :: rest =>
    if b < 0x80 then putChar b.toNat (asciiFrom (pos + 1) rest)
    else .error (.flaw { encoding := "ascii", byte := b.toNat, position := pos, count := 1,
                         reason := "ordinal not in range(128)" })

/-! ### UTF-16 -/

/-- The number of a pair of bytes, the first one being the low one in `little` order. -/
def pair (little : Bool) (a b : UInt8) : Nat :=
  if little then b.toNat * 256 + a.toNat else a.toNat * 256 + b.toNat

/-- Bytes that encode nothing in UTF-16. -/
def utf16Flaw (little : Bool) (first : UInt8) (position count : Nat) (reason : String) :
    DecodeFault :=
  .flaw { encoding := if little then "utf-16-le" else "utf-16-be", byte := first.toNat, position,
          count, reason }

/-- The text of pairs of bytes, the first of which has index `pos`. -/
def utf16From (little : Bool) (pos : Nat) : List UInt8 → Except DecodeFault Text
  | [] => .ok []
  | [a] => .error (utf16Flaw little a pos 1 "truncated data")
  | a :: b :: rest =>
    let u := pair little a b
    if u < 0xD800 || 0xE000 ≤ u then putChar u (utf16From little (pos + 2) rest)
    else if 0xDC00 ≤ u then .error (utf16Flaw little a pos 2 "illegal encoding")
    else
      match rest with
      | [] => .error (utf16Flaw little a pos 2 "unexpected end of data")
      | [_] => .error (utf16Flaw little a pos 3 "unexpected end of data")
      | c :: d :: rest =>
        let v := pair little c d
        if 0xDC00 ≤ v && v < 0xE000 then
          putChar (0x10000 + (u - 0xD800) * 0x400 + (v - 0xDC00)) (utf16From little (pos + 4) rest)
        else .error (utf16Flaw little a pos 2 "illegal UTF-16 surrogate")

/-- The text of bytes in UTF-16.  Without a mark the pairs are tried in `little` order, and are
refused if that goes well. -/
def utf16Marked : List UInt8 → Except DecodeFault Text
  | 0xFF :: 0xFE :: rest => utf16From true 2 rest
  | 0xFE :: 0xFF :: rest => utf16From false 2 rest
  | [] => .ok []
  | bytes =>
    match utf16From true 0 bytes with
    | .error fault => .error fault
    | .ok _ => .error .noByteOrderMark

/-- The text of bytes in an encoding. -/
def decode : Encoding → List UInt8 → Except DecodeFault Text
  | .utf8, bytes => utf8From 0 bytes
  | .utf8Marked, bytes => utf8MarkedFrom bytes
  | .ascii, bytes => asciiFrom 0 bytes
  | .latin1, bytes => .ok (bytes.map (fun b => Char.ofNat b.toNat))
  | .utf16, bytes => utf16Marked bytes

end Encoding

end Passcode
