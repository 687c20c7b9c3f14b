/-!
# Text — code points in order, and where one text occurs in another

A text is the list of its code points, so every index, length and window of this library counts
code points.

* `slice` cuts a stretch out of a text; a negative bound counts from the end.
* `occursIn` says whether one text stands inside another.
* `selectFrom` lists the starts of the occurrences that a search from the left selects when it goes
  on behind each one it has found; no two of them overlap.
-/

namespace Passcode

/-- A text is the list of its code points. -/
abbrev Text := List Char

namespace Text

/-! ### Stretches -/

/-- The place in a text of `n` characters that the bound `i` names: a negative bound counts from
the end, and a bound outside the text is moved to its nearest end. -/
def boundOf (n : Nat) (i : Int) : Nat :=
  if i < 0 then (n + i).toNat else min i.toNat n

/-- The stretch of `t` from the bound `first` up to, and without, the bound `last`. -/
def slice (t : Text) (first last : Int) : Text :=
  (t.take (boundOf t.length last)).drop (boundOf t.length first)

/-! ### Occurrences -/

/-- `needle` stands somewhere in the text. -/
def occursIn (needle : Text) : Text → Bool
  | [] => needle.isEmpty
  | c :: cs => needle.isPrefixOf (c :: cs) || occursIn needle cs

/-- The starts of the occurrences of `needle` that a search from the left selects in a text whose
first character has index `pos`, the first `skip` characters being passed over. -/
def selectFrom (needle : Text) : Nat → Nat → Text → List Nat
  | _, _, [] => []
  | pos, skip + 1, _ :: cs => selectFrom needle (pos + 1) skip cs
  | pos, 0, c :: cs =>
    if needle.isPrefixOf (c :: cs) then
      pos :: selectFrom needle (pos + 1) (needle.length - 1) cs
    else
      selectFrom needle (pos + 1) 0 cs

/-- The indices at which the character `c` stands, for a text that starts at index `pos`. -/
def indicesOf (c : Char) : Nat → Text → List Nat
  | _, [] => []
  | pos, d :: ds => if d = c then pos :: indicesOf c (pos + 1) ds else indicesOf c (pos + 1) ds

end Text

end Passcode
