import Passcode.Line.Basic

/-!
# The line index of a message

Many candidates share a line, so what is read off a line is kept (`LineIndex.known`), in the order
in which the lines were first asked for, under the span of the line.  The line feeds of the text are
listed once; `LineIndex.spanOf` finds the line around a span from that list.
-/

namespace Passcode

/-- A text with its line feeds and with the facts of the lines that were asked for. -/
structure LineIndex where
  text : Text
  /-- The indices of the line feeds, ascending. -/
  feeds : List Nat
  /-- The facts that are known, the oldest first. -/
  known : List LineFacts
deriving Repr

namespace LineIndex

/-- The index of a text, of which no line is known yet. -/
def of (text : Text) : LineIndex :=
  { text, feeds := Text.indicesOf '\n' 0 text, known := [] }

/-- The first and the stop of the line around the span from `first` to `last`. -/
def spanOf (ix : LineIndex) (first last : Int) : Nat × Nat :=
  let before := ix.feeds.takeWhile (fun (f : Nat) => (f : Int) < first)
  let behind := ix.feeds.dropWhile (fun (f : Nat) => (f : Int) < last + 1)
  ((before.getLast?.map (· + 1)).getD 0, behind.head?.getD ix.text.length)

/-- The facts of the line around a span, their place among the known ones, and the index in which
they are known. -/
def lookUp (ix : LineIndex) (first last : Int) : (Nat × LineFacts) × LineIndex :=
  let (start, stop) := ix.spanOf first last
  match ix.known.zipIdx.find? (fun p => p.1.line.first == start && p.1.line.stop == stop) with
  | some (facts, place) => ((place, facts), ix)
  | none =>
    let facts := LineFacts.of (.cut ix.text start stop)
    ((ix.known.length, facts), { ix with known := ix.known ++ [facts] })

end LineIndex

end Passcode
