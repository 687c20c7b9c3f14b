import Passcode.Candidate.Basic
import Passcode.Noise
import Passcode.Text.Runs

/-!
# The candidates of a message

Candidates are found in the text with its noise blanked out, in three passes whose results follow
one another (`candidatesOf`).

* **Digit runs** (`numericPass`): each maximal run of 3 to 10 plain digits.
* **Digit groups** (`groupedPass`): a *chunk* is a maximal run of 2 to 4 digits with no word
  character on either side, and a *chain* a maximal sequence of at least two chunks, each parted
  from the next by a single space or dash.  The digits of a chain are a code if they number at most
  8 and no earlier candidate has them.
* **Tokens** (`alnumPass`): each maximal run of word characters that holds 4 to 10 plain letters
  and digits, at least two of them digits and at least one a letter.
-/

namespace Passcode

/-! ### Digit runs -/

/-- The candidate of a whole run. -/
def Candidate.ofRun (source : Source) (numeric : Bool) (r : Run) : Candidate :=
  { code := r.body, first := r.start, last := (r.stop : Int) - 1, numeric, source }

/-- The runs of 3 to 10 digits. -/
def numericPass (scan : Text) : List Candidate :=
  ((Text.runs Text.isAsciiDigit scan).filter
    (fun r => 3 ≤ r.body.length && r.body.length ≤ 10)).map (Candidate.ofRun .numeric true)

/-! ### Digit groups -/

/-- The runs of 2 to 4 digits that touch no word character. -/
def chunks (scan : Text) : List Run :=
  (Text.runs Text.isAsciiDigit scan).filter
    (fun r => 2 ≤ r.body.length && r.body.length ≤ 4 && r.isolatedFrom Text.isWord)

/-- One space or one dash, and nothing else, stands between the two runs. -/
def Run.linkedTo (a b : Run) : Bool :=
  (a.after == some ' ' || a.after == some '-') && b.start == a.stop + 1

/-- The maximal sequences of runs that are linked one to the next. -/
def chains : List Run → List (List Run)
  | [] => []
  | r :: rs =>
    match chains rs with
    | (s :: ss) :: more =>
      if r.linkedTo s then (r :: s :: ss) :: more else [r] :: (s :: ss) :: more
    | more => [r] :: more

/-- The digits of a chain. -/
def chainCode (chain : List Run) : Text := chain.flatMap Run.body

/-- The candidate of a chain, from its first digit to its last. -/
def Candidate.ofChain (chain : List Run) : Candidate :=
  { code := chainCode chain
    first := (chain.head?.map Run.start).getD 0
    last := ((chain.getLast?.map Run.stop).getD 0 : Int) - 1
    numeric := true
    source := .grouped }

/-- The candidates of the chains whose digits number 4 to 8 and are not `seen` before. -/
def chainCandidates : List Text → List (List Run) → List Candidate
  | _, [] => []
  | seen, chain :: rest =>
    let code := chainCode chain
    if 4 ≤ code.length && code.length ≤ 8 && !seen.contains code then
      Candidate.ofChain chain :: chainCandidates (code :: seen) rest
    else
      chainCandidates seen rest

/-- The groups of digits whose codes are not `seen` before. -/
def groupedPass (seen : List Text) (scan : Text) : List Candidate :=
  chainCandidates seen ((chains (chunks scan)).filter (fun chain => 2 ≤ chain.length))

/-! ### Tokens -/

/-- A run of word characters is a token of plain letters and digits that may be a code. -/
def isToken (body : Text) : Bool :=
  body.all Text.isAsciiAlnum && 4 ≤ body.length && body.length ≤ 10 &&
    2 ≤ body.countP Text.isAsciiDigit && body.countP Text.isAsciiDigit < body.length

/-- The tokens of letters and digits. -/
def alnumPass (scan : Text) : List Candidate :=
  ((Text.runs Text.isWord scan).filter (fun r => isToken r.body)).map (Candidate.ofRun .alnum false)

/-! ### All candidates -/

/-- The candidates of a message: digit runs, then digit groups, then tokens. -/
def candidatesOf (text : Text) : List Candidate :=
  let scan := maskNoise text
  let numeric := numericPass scan
  numeric ++ groupedPass (numeric.map Candidate.code) scan ++ alnumPass scan

end Passcode
