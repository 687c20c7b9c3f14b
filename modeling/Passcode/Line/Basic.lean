import Passcode.Noise
import Passcode.Text.Blank

/-!
# Line — the line of a message around a span, and what is read off it

`Line.around` is the stretch between the nearest line feeds on both sides of a span.

A value is *assigned* in a line when it stands behind a colon, an equals sign or "is", blanks
between them being passed over.  For values of up to ten characters a table answers the question:
every beginning of what stands behind a marker and its blanks (`Line.assignedTable`), the markers
being those that one search from the left finds.  Other values are looked for in the line
(`Line.assigns`).
-/

namespace Passcode

/-- A line of a text: its characters, the index of the first of them and the index just behind
the last. -/
structure Line where
  text : Text
  first : Nat
  stop : Nat
deriving DecidableEq, Repr

namespace Line

/-- The index of the last character, which lies before the first one in an empty line. -/
def last (l : Line) : Int := (l.stop : Int) - 1

/-- The line of `text` from the index `first` up to, and without, the index `stop`. -/
def cut (text : Text) (first stop : Nat) : Line :=
  { text := (text.take stop).drop first, first, stop }

/-- The line around the span from `first` to `last`. -/
def around (text : Text) (first last : Int) : Line :=
  let before := text.take (Text.boundOf text.length first)
  let stop := Text.boundOf text.length (last + 1)
  cut text (before.reverse.dropWhile (· != '\n')).length
    (stop + ((text.drop stop).takeWhile (· != '\n')).length)

/-! ### Assigned values -/

/-- The text behind the marker with which `t` starts: a colon, an equals sign or "is". -/
def behindMarker? : Text → Option Text
  | ':' :: cs => some cs
  | '=' :: cs => some cs
  | 'i' :: 's' :: cs => some cs
  | _ => none

/-- The beginnings of a text, the empty one apart, the shortest first. -/
def beginnings : Text → List Text
  | [] => []
  | c :: cs => [c] :: (beginnings cs).map (c :: ·)

/-- The longest value that the table of a line answers for. -/
def longestInTable : Nat := 10

/-- What stands behind each marker of a line and its blanks.  The markers are found from the left,
the search going on behind the blanks of each one, and the first `skip` characters are passed
over. -/
def behindMarkersFrom : Nat → Text → List Text
  | _, [] => []
  | skip + 1, _ :: cs => behindMarkersFrom skip cs
  | 0, c :: cs =>
    match behindMarker? (c :: cs) with
    | some rest =>
      Text.trimStart rest :: behindMarkersFrom (cs.length - (Text.trimStart rest).length) cs
    | none => behindMarkersFrom 0 cs

/-- The beginnings of up to ten characters of what stands behind the markers of a line and their
blanks. -/
def assignedTable (line : Text) : List Text :=
  (behindMarkersFrom 0 line).flatMap (fun t => beginnings (t.take longestInTable))

/-- The text starts with `value`, behind any number of its blanks. -/
def startsBehindBlanks (value : Text) : Text → Bool
  | [] => value.isEmpty
  | c :: cs => value.isPrefixOf (c :: cs) || (Text.isBlank c && startsBehindBlanks value cs)

/-- A marker, any number of blanks and `value` stand somewhere in the line. -/
def assigns (value : Text) : Text → Bool
  | [] => false
  | c :: cs =>
    (match behindMarker? (c :: cs) with
      | some rest => startsBehindBlanks value rest
      | none => false) || assigns value cs

/-- The words that make a line speak of codes. -/
def codeWords : List Text :=
  ["otp".toList, "code".toList, "password".toList, "passcode".toList]

end Line

/-- What is read off a line, once for all candidates on it. -/
structure LineFacts where
  line : Line
  /-- The line without the blanks at its ends. -/
  trimmed : Text
  /-- The line speaks of codes, in any case of letters. -/
  hasCodeWord : Bool
  /-- The values of up to ten characters that are assigned in the line. -/
  assigned : List Text
deriving DecidableEq, Repr

namespace LineFacts

/-- Reads the facts off a line. -/
def of (line : Line) : LineFacts :=
  { line
    trimmed := Text.trim line.text
    hasCodeWord := Line.codeWords.any (fun word => Text.occursLike word line.text)
    assigned := Line.assignedTable line.text }

/-- `code` is assigned in the line. -/
def assigns (facts : LineFacts) (code : Text) : Bool :=
  if 0 < code.length && code.length ≤ Line.longestInTable then facts.assigned.contains code
  else Line.assigns code facts.line.text

end LineFacts

end Passcode
