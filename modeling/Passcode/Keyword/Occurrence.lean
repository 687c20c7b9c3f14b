import Passcode.Text.Basic

/-!
# Where keywords occur

* `containsAny`: one of the keywords, empty ones apart, stands somewhere in the text.
* `keywordCentres`: the middles of the occurrences of all keywords, in ascending order.  The
  occurrences of one keyword are taken from the left and do not overlap.
* `distanceToNearest`: how far the middle of a span is from the nearest centre.  The centres are
  sorted, so the nearest one is the last below the middle or the first that is not.
* `indicatorNear`: one of the indicators stands wholly within a radius of an index.
-/

namespace Passcode

/-- One of the `needles` that are not empty stands in the text. -/
def containsAny (text : Text) (needles : List Text) : Bool :=
  needles.any (fun needle => !needle.isEmpty && Text.occursIn needle text)

/-- The middles of the occurrences of one keyword. -/
def centresOf (lower keyword : Text) : List Nat :=
  (Text.selectFrom keyword 0 0 lower).map (· + keyword.length / 2)

/-- The middles of the occurrences of all keywords that are not empty, ascending. -/
def keywordCentres (lower : Text) (keywords : List Text) : List Nat :=
  ((keywords.filter (fun k => !k.isEmpty)).flatMap (centresOf lower)).mergeSort (· ≤ ·)

/-- The middle of the span from `first` to `last`, the lower one of two. -/
def middle (first last : Int) : Int := (first + last) / 2

/-- The distance from `index` to the nearest of the ascending `centres`. -/
def distanceToNearest (index : Int) (centres : List Int) : Option Nat :=
  let below := (centres.takeWhile (· < index)).getLast?
  let above := (centres.dropWhile (· < index)).head?
  match below, above with
  | none, none => none
  | some b, none => some (index - b).natAbs
  | none, some a => some (index - a).natAbs
  | some b, some a => some (min (index - b).natAbs (index - a).natAbs)

/-- One of the indicators stands in `lower` between `radius` characters before `index` and `radius`
characters behind it. -/
def indicatorNear (lower : Text) (indicators : List Text) (index radius : Int) : Bool :=
  let first := max (index - radius) 0
  let stop := min (index + radius) lower.length
  if first ≥ stop then false
  else containsAny (Text.slice lower first stop) indicators

end Passcode
