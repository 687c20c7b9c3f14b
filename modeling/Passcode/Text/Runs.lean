import Passcode.Text.Basic

/-!
# Runs — the maximal stretches of one kind of character

`runsFrom p before pos t` lists, from left to right, the maximal stretches of characters with the
property `p` in a text `t` that starts at index `pos` behind the character `before`.  Each run is
given with its start and with the characters on its two sides, which lack the property.
-/

namespace Passcode

/-- A maximal stretch of characters of one kind, with its two neighbours. -/
structure Run where
  /-- The character before the run, none at the start of the text. -/
  before : Option Char
  /-- The index of the first character. -/
  start : Nat
  body : Text
  /-- The character behind the run, none at the end of the text. -/
  after : Option Char
deriving DecidableEq, Repr

namespace Run

/-- The index just behind the run. -/
def stop (r : Run) : Nat := r.start + r.body.length

/-- Both neighbours, where there are any, lack the property `q`. -/
def isolatedFrom (q : Char → Bool) (r : Run) : Bool :=
  r.before.all (fun c => !q c) && r.after.all (fun c => !q c)

end Run

namespace Text

/-- The maximal runs of `p` in a text that starts at index `pos` behind the character `before`. -/
def runsFrom (p : Char → Bool) : Option Char → Nat → Text → List Run
  | _, _, [] => []
  | before, pos, c :: cs =>
    let rest := runsFrom p (some c) (pos + 1) cs
    if p c then
      match rest with
      | r :: rs =>
        if r.start = pos + 1 then
          { r with before := before, start := pos, body := c :: r.body } :: rs
        else
          { before := before, start := pos, body := [c], after := cs.head? } :: rest
      | [] => [{ before := before, start := pos, body := [c], after := cs.head? }]
    else
      rest

/-- The maximal runs of `p` in a text, from left to right. -/
def runs (p : Char → Bool) (t : Text) : List Run := runsFrom p none 0 t

end Text

end Passcode
