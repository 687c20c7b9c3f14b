import Passcode.Text.Blank
import Passcode.Text.Lowercase

/-!
# Keyword lists

`KeywordList.of` brings keywords into the form in which they are searched for: trimmed, in
lowercase, without empty ones, and each once, at the place where it came first.
-/

namespace Passcode

/-- Keywords in the form in which they are searched for. -/
structure KeywordList where
  items : List Text
deriving DecidableEq, Repr

namespace KeywordList

/-- A keyword, trimmed and in lowercase. -/
def form (keyword : Text) : Text := Text.lower (Text.trim keyword)

/-- The keyword list of some keywords. -/
def of (keywords : List Text) : KeywordList :=
  ⟨((keywords.map form).filter (fun k => !k.isEmpty)).eraseDups⟩

/-- The number of keywords. -/
def size (l : KeywordList) : Nat := l.items.length

/-- The list has this very keyword. -/
def contains (l : KeywordList) (keyword : Text) : Bool := l.items.contains keyword

end KeywordList

end Passcode
