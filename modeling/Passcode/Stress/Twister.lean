/-!
# The twister — a generator of 32-bit words with a period of 2^19937 - 1

The state of the generator is a row of 624 words.  Each time the row is used up, every word of it is
replaced by a mixture of itself, its successor and the word 397 places on (`Twister.twist`); a word
is tempered on its way out.  A seed is any integer; its sign does not count, and its 32-bit digits
are stirred into the row one after the other (`Twister.ofSeed`).
-/

namespace Passcode

/-- A source of 32-bit words. -/
class WordSource (σ : Type) where
  /-- The next word, and the source behind it. -/
  next : σ → UInt32 × σ

/-- The state of the generator: its row, and how many words of it are used up. -/
structure Twister where
  row : Array UInt32
  used : Nat

namespace Twister

/-- The number of words in the row. -/
def rowLength : Nat := 624

/-- How far ahead lies the word that is mixed in. -/
def ahead : Nat := 397

/-- The word at a place of the row, the row being closed to a ring. -/
def word (row : Array UInt32) (place : Nat) : UInt32 := row.getD (place % rowLength) 0

/-! ### Seeds -/

/-- A word, folded on itself for the next one to be made of it. -/
def folded (w : UInt32) : UInt32 := w ^^^ (w >>> 30)

/-- The row that grows out of one word. -/
def ofWord (w : UInt32) : Array UInt32 :=
  (List.range (rowLength - 1)).foldl
    (fun row i => row.push (1812433253 * folded (row.getD i 0) + (i + 1).toUInt32)) #[w]

/-- The place behind `place`, the last word of the row being copied to its start when the end is
passed. -/
def advance (row : Array UInt32) (place : Nat) : Array UInt32 × Nat :=
  if place + 1 < rowLength then (row, place + 1)
  else (row.setIfInBounds 0 (word row (rowLength - 1)), 1)

/-- The row after the digits of the seed have been stirred in. -/
def stirred (digits : List UInt32) : Array UInt32 :=
  let keys := digits.toArray
  let rounds := max rowLength keys.size
  let first := (List.range rounds).foldl
    (fun (state : Array UInt32 × Nat) step =>
      let (row, place) := state
      let digit := step % keys.size
      let mixed := (word row place ^^^ (folded (word row (place - 1)) * 1664525)) +
        keys.getD digit 0 + digit.toUInt32
      advance (row.setIfInBounds place mixed) place)
    (ofWord 19650218, 1)
  let second := (List.range (rowLength - 1)).foldl
    (fun (state : Array UInt32 × Nat) _ =>
      let (row, place) := state
      let mixed := (word row place ^^^ (folded (word row (place - 1)) * 1566083941)) -
        place.toUInt32
      advance (row.setIfInBounds place mixed) place)
    first
  second.1.setIfInBounds 0 0x80000000

/-- The 32-bit digits of a number, the least first; zero has one. -/
def digitsOf (n : Nat) : List UInt32 :=
  if _h : n < 0x100000000 then [n.toUInt32]
  else (n % 0x100000000).toUInt32 :: digitsOf (n / 0x100000000)
termination_by n
decreasing_by omega

/-- The generator of a seed. -/
def ofSeed (seed : Int) : Twister :=
  { row := stirred (digitsOf seed.natAbs), used := rowLength }

/-! ### Words -/

/-- The row after every word of it has been replaced. -/
def twist (row : Array UInt32) : Array UInt32 :=
  (List.range rowLength).foldl
    (fun row i =>
      let y := (word row i &&& 0x80000000) ||| (word row (i + 1) &&& 0x7FFFFFFF)
      let mask : UInt32 := if y &&& 1 = 0 then 0 else 0x9908B0DF
      row.setIfInBounds i (word row (i + ahead) ^^^ (y >>> 1) ^^^ mask))
    row

/-- A word of the row as it goes out. -/
def temper (w : UInt32) : UInt32 :=
  let w := w ^^^ (w >>> 11)
  let w := w ^^^ ((w <<< 7) &&& 0x9D2C5680)
  let w := w ^^^ ((w <<< 15) &&& 0xEFC60000)
  w ^^^ (w >>> 18)

/-- The next word, and the generator behind it. -/
def next (t : Twister) : UInt32 × Twister :=
  if t.used < rowLength then (temper (word t.row t.used), { t with used := t.used + 1 })
  else
    let row := twist t.row
    (temper (word row 0), { row, used := 1 })

instance : WordSource Twister := ⟨next⟩

end Twister

end Passcode
