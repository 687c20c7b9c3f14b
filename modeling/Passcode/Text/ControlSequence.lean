import Passcode.Text.Basic

/-!
# Control sequences — what a terminal acts on instead of showing it

A control sequence is an escape character, an opening bracket, a row of digits, semicolons and
question marks that may be empty, and a plain letter.  `withoutControlSequences` is the text as an
output shows it that is no terminal: the sequences are taken out from left to right, and what comes
together where one has been taken out is not looked at again.
-/

namespace Passcode.Text

/-- `c` may stand between the bracket and the letter of a control sequence. -/
def isSequenceParameter (c : Char) : Bool := c.isDigit || c = ';' || c = '?'

/-- The length of the control sequence with which a text starts, zero where none does. -/
def controlSequenceLength : Text → Nat
  | '\x1B' :: '[' :: cs =>
    let parameters := cs.takeWhile isSequenceParameter
    if (cs.drop parameters.length).head?.any Char.isAlpha then parameters.length + 3 else 0
  | _ => 0

/-- The text without its control sequences, the first `skip` characters being the rest of one. -/
def dropSequencesFrom : Nat → Text → Text
  | _, [] => []
  | skip + 1, _ :: cs => dropSequencesFrom skip cs
  | 0, c :: cs =>
    match controlSequenceLength (c :: cs) with
    | 0 => c :: dropSequencesFrom 0 cs
    | n + 1 => dropSequencesFrom n cs

/-- The text without its control sequences. -/
def withoutControlSequences (t : Text) : Text := dropSequencesFrom 0 t

end Passcode.Text
