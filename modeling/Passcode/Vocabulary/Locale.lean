import Passcode.Text.Blank
import Passcode.Text.Lowercase

/-!
# Locale — the bundles to try for a locale

A locale is cut at dashes, underscores, full stops and at signs; its parts, in lowercase and joined
by underscores, name the bundle of the whole locale, and dropping the last part again and again
names less and less specific ones (`localeCandidates`).
-/

namespace Passcode

/-- The locale on which all others are built. -/
def defaultLocale : Text := "en".toList

namespace Locale

/-- `c` parts a locale. -/
def isSeparator (c : Char) : Bool := c = '-' || c = '_' || c = '.' || c = '@'

/-- The stretches of a text between the characters that part it. -/
def pieces (parts : Char → Bool) : Text → List Text
  | [] => [[]]
  | c :: cs =>
    if parts c then [] :: pieces parts cs
    else
      match pieces parts cs with
      | p :: ps => (c :: p) :: ps
      | [] => [[c]]

/-- The parts joined by underscores. -/
def joined : List Text → Text
  | [] => []
  | [p] => p
  | p :: ps => p ++ '_' :: joined ps

/-- The beginnings of a list of parts, joined, the whole list first and the empty one apart. -/
def lessAndLess (parts : List Text) : List Text :=
  ((List.range parts.length).map (fun n => joined (parts.take (n + 1)))).reverse

end Locale

/-- The names of the bundles to try for a locale, the most specific first. -/
def localeCandidates (locale : Option Text) : List Text :=
  match locale with
  | none | some [] => [defaultLocale]
  | some l =>
    Locale.lessAndLess
      ((Locale.pieces Locale.isSeparator (Text.lower (Text.trim l))).filter (fun p => !p.isEmpty))

end Passcode
