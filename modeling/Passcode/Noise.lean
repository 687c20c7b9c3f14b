import Passcode.Text.Blank
import Passcode.Text.WordChar

/-!
# Noise — the parts of a message in which no code is looked for

Four kinds of noise are blanked out, one after the other (`maskNoise`): links, domain names with
their paths, quotation marks, and one phrase that asks to share a code.  Every character of a piece
of noise becomes a space, so the masked text has the length of the text, and at each index the same
character or a space.

A kind of noise is a function `Text → Nat` of the text from some place on, with the character before
it: the length of the piece of noise that starts there, and zero where none does.  Masking takes the
pieces from left to right, none overlapping (`blankOut`).
-/

namespace Passcode

namespace Text

/-- `c` is the small letter or the mark `p`, or its capital; the long s is an s. -/
def sameLetter (p c : Char) : Bool :=
  c.toLower == p || (p == 's' && c == '\u017F')

/-- The text starts with `word`, the case of letters apart. -/
def startsLike : Text → Text → Bool
  | [], _ => true
  | _, [] => false
  | p :: word, c :: cs => sameLetter p c && startsLike word cs

/-- `word` stands somewhere in the text, the case of letters apart. -/
def occursLike (word : Text) : Text → Bool
  | [] => word.isEmpty
  | c :: cs => startsLike word (c :: cs) || occursLike word cs

end Text

namespace Noise

/-- Blanks the pieces that `piece` finds, from left to right, with `left` characters of the last
piece still to go. -/
def blankOut (piece : Option Char → Text → Nat) : Option Char → Nat → Text → Text
  | _, _, [] => []
  | _, left + 1, c :: cs => ' ' :: blankOut piece (some c) left cs
  | before, 0, c :: cs =>
    match piece before (c :: cs) with
    | 0 => c :: blankOut piece (some c) 0 cs
    | n + 1 => ' ' :: blankOut piece (some c) n cs

/-- The length of the stretch of at most `most` characters that are not blank. -/
def solidLength (most : Nat) (t : Text) : Nat :=
  ((t.take most).takeWhile (fun c => !Text.isBlank c)).length

/-- The longest stretch behind the start of a link, or behind the slash of a path. -/
def longestTail : Nat := 2048

/-- The ways in which a link starts. -/
def linkStarts : List Text := ["https://".toList, "http://".toList, "www.".toList]

/-- A link: one of its starts, in any case, and at least one character that is not blank. -/
def linkLength (t : Text) : Nat :=
  match linkStarts.find? (fun start => Text.startsLike start t) with
  | some start =>
    let tail := solidLength longestTail (t.drop start.length)
    if tail = 0 then 0 else start.length + tail
  | none => 0

/-- The slash and the path behind a domain. -/
def pathLength : Text → Nat
  | '/' :: cs => 1 + solidLength longestTail cs
  | _ => 0

/-- The most characters of a domain label behind its first one. -/
def longestLabelRest : Nat := 61

/-- The most letters of a domain's last label. -/
def longestTopLabel : Nat := 24

/-- A domain: a label of plain letters, digits and dashes that starts a word, a full stop, a last
label of two letters or more that ends a word, and the path behind it. -/
def domainLength (before : Option Char) : Text → Nat
  | [] => 0
  | c :: cs =>
    if !Text.isAsciiAlnum c || before.any Text.isWord then 0
    else
      let label := (cs.take (longestLabelRest + 1)).takeWhile
        (fun d => Text.isAsciiAlnum d || d == '-')
      match cs.drop label.length with
      | '.' :: rest =>
        let top := (rest.take (longestTopLabel + 1)).takeWhile Text.isAsciiLetter
        let behind := rest.drop top.length
        if longestLabelRest < label.length || top.length < 2 || longestTopLabel < top.length ||
            behind.head?.any Text.isWord then 0
        else 1 + label.length + 1 + top.length + pathLength behind
      | _ => 0

/-- `c` is a quotation mark: a straight one, a grave accent, or a curly one. -/
def isQuote (c : Char) : Bool :=
  c = '"' || c = '\'' || c = '\x60' || c = '\u2018' || c = '\u2019' || c = '\u201C' || c = '\u201D'

/-- A single quotation mark. -/
def quoteLength : Text → Nat
  | c :: _ => if isQuote c then 1 else 0
  | [] => 0

/-- The phrase that asks to share a code. -/
def sharePhrase : Text := "share otp".toList

/-- The phrase that asks to share a code, in any case. -/
def phraseLength (t : Text) : Nat :=
  if Text.startsLike sharePhrase t then sharePhrase.length else 0

end Noise

open Noise in
/-- The text with its noise blanked out. -/
def maskNoise (t : Text) : Text :=
  let links := blankOut (fun _ => linkLength) none 0 t
  let domains := blankOut domainLength none 0 links
  let quotes := blankOut (fun _ => quoteLength) none 0 domains
  blankOut (fun _ => phraseLength) none 0 quotes

end Passcode
