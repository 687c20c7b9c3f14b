import Passcode.Binary64.Decimal
import Passcode.Stress.Twister

/-!
# Draws — choices made with the words of a source

A draw takes words from a source and gives a value, or halts.  A number below a bound is drawn by
taking as many bits as the bound has until the number lies below it (`Draw.below`).  At least every
second try succeeds on average.  How many tries are made for one number is the patience of the draw;
when all of them fail, the source is given up, and the draw tells for which bound and from which
place of the source on (`Draw.Halt`).
-/

namespace Passcode

/-- Why a draw fails. -/
inductive DrawFault where
  /-- There is nothing to choose from. -/
  | emptyRange
  /-- The source gave no number below the bound in as many tries as the patience allows. -/
  | sourceGivenUp
deriving DecidableEq, Repr

/-- Where a draw ends without a value. -/
inductive Draw.Halt (σ : Type) where
  /-- There is nothing to choose from. -/
  | emptyRange
  /-- Of the tries for a number below `bound`, the first of them at `place`, none succeeded. -/
  | givenUp (bound : Nat) (place : σ)

/-- Why a draw fails that ends there. -/
def Draw.Halt.fault {σ : Type} : Draw.Halt σ → DrawFault
  | .emptyRange => .emptyRange
  | .givenUp _ _ => .sourceGivenUp

/-- A value drawn with the words of a source. -/
abbrev Draw (σ α : Type) := StateT σ (Except (Draw.Halt σ)) α

namespace Draw

variable {σ : Type}

/-- The value that a source gives, without the source behind it. -/
def valueFrom {α : Type} (draw : Draw σ α) (s : σ) : Except DrawFault α :=
  match draw s with
  | .ok r => .ok r.1
  | .error halt => .error halt.fault

variable [WordSource σ]

/-- The next word. -/
def word : Draw σ Nat := fun s =>
  let (w, s) := WordSource.next s
  .ok (w.toNat, s)

/-- A draw that halts. -/
def halt {α : Type} (h : Halt σ) : Draw σ α := fun _ => .error h

/-- Full words for `n` times 32 bits, the first of them the lowest, and then the top `rest` bits of
a last one. -/
def bitsOf (rest : Nat) : Nat → Draw σ Nat
  | 0 => if rest = 0 then pure 0 else do return (← word) >>> (32 - rest)
  | n + 1 => do
    let low ← word
    let high ← bitsOf rest n
    return high <<< 32 + low

/-- A number of `k` bits. -/
def bits (k : Nat) : Draw σ Nat := bitsOf (k % 32) (k / 32)

/-- Draws numbers of `k` bits until one lies below `bound`, at most `tries` times, the first try
having been made at `place`. -/
def belowFrom (bound k : Nat) (place : σ) : Nat → Draw σ Nat
  | 0 => halt (.givenUp bound place)
  | tries + 1 => do
    let n ← bits k
    if n < bound then return n else belowFrom bound k place tries

/-- The patience that is had where no other is asked for. -/
def usualPatience : Nat := 1000

/-- A number below `bound`. -/
def below (patience bound : Nat) : Draw σ Nat :=
  if bound = 0 then halt .emptyRange
  else fun s => belowFrom bound (bound.log2 + 1) s patience s

/-- A number from `low` to `high`, both ends included. -/
def between (patience : Nat) (low high : Int) : Draw σ Int :=
  if high < low then halt .emptyRange
  else do return low + (← below patience (high - low + 1).toNat)

/-- One of the entries. -/
def choice {α : Type} (patience : Nat) (entries : List α) : Draw σ α := do
  let n ← below patience entries.length
  match entries[n]? with
  | some x => return x
  | none => halt .emptyRange

/-- A number from 0 up to, and without, 1, with 53 bits behind the point. -/
def unit : Draw σ Binary64 := do
  let high ← word
  let low ← word
  return .ofFraction false ((high >>> 5) <<< 26 + (low >>> 6)) (1 <<< 53)

/-- The values of `n` draws, one after the other. -/
def times {α : Type} (draw : Draw σ α) : Nat → Draw σ (List α)
  | 0 => pure []
  | n + 1 => do
    let x ← draw
    let xs ← times draw n
    return x :: xs

end Draw

end Passcode
