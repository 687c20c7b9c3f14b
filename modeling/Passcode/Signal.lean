import Passcode.Binary64.Basic
import Passcode.Candidate.Basic
import Passcode.Keyword.Occurrence
import Passcode.Line.Index
import Passcode.Text.Lowercase

/-!
# Signals — the ten reasons for or against a candidate

Each candidate is judged by ten signals, and its score is their sum (`Breakdown.total`).  Every
signal is a multiple of one half, so a score is counted in halves and sums are exact.

* length: 3 for six characters, 2 for four to eight, 1 for three to ten, and -1 otherwise;
* numeric: 1/2 for digits only, and from nine digits on -3/2 (long numeric);
* exact line: 5/2 if the trimmed line is the code;
* line keyword: 2 if the line speaks of codes;
* assignment: 3/2 if the code is assigned in its line;
* keyword proximity: 2, 1 or 1/2 if a keyword centre is within 20, 40 or 80 characters;
* safety: 1 if the message has a safety keyword;
* money: -2 if a money indicator is near;
* phone shape: -5/2 behind a plus sign, "tel" or "call", or from nine digits on.
-/

namespace Passcode

/-- A score, counted in halves. -/
structure Score where
  halves : Int
deriving DecidableEq, Repr

namespace Score

/-- No points. -/
def zero : Score := ⟨0⟩

instance : Add Score := ⟨fun a b => ⟨a.halves + b.halves⟩⟩

/-- The score as a number. -/
def toBinary64 (s : Score) : Binary64 :=
  Binary64.ofFraction (s.halves < 0) s.halves.natAbs 2

/-- The first score is greater than the second. -/
def exceeds (a b : Score) : Bool := b.halves < a.halves

end Score

/-- The contributions of the ten signals to the score of a candidate. -/
structure Breakdown where
  length : Score
  numeric : Score
  longNumeric : Score
  exactLine : Score
  lineKeyword : Score
  assignment : Score
  keywordProximity : Score
  safety : Score
  money : Score
  phoneShape : Score
deriving DecidableEq, Repr

namespace Breakdown

/-- The contributions with the names of the signals. -/
def named (b : Breakdown) : List (String × Score) :=
  [("length", b.length), ("numeric", b.numeric), ("long_numeric", b.longNumeric),
   ("exact_line", b.exactLine), ("line_keyword", b.lineKeyword), ("assignment", b.assignment),
   ("keyword_proximity", b.keywordProximity), ("safety", b.safety), ("money", b.money),
   ("phone_shape", b.phoneShape)]

/-- The sum of the contributions. -/
def total (b : Breakdown) : Score :=
  b.length + b.numeric + b.longNumeric + b.exactLine + b.lineKeyword + b.assignment +
    b.keywordProximity + b.safety + b.money + b.phoneShape

end Breakdown

namespace Signal

/-! ### The contributions -/

/-- `points` if the reason holds, and nothing otherwise. -/
def given (reason : Bool) (points : Score) : Score := if reason then points else .zero

/-- The contribution of the number of characters. -/
def ofLength (n : Int) : Score :=
  if n = 6 then ⟨6⟩
  else if 4 ≤ n && n ≤ 8 then ⟨4⟩
  else if 3 ≤ n && n ≤ 10 then ⟨2⟩
  else ⟨-2⟩

/-- Digits only, and as many as a telephone number has. -/
def isLongNumber (c : Candidate) : Bool := c.numeric && 9 ≤ c.length

/-- The greatest distance of each tier with its contribution, the nearest tier first. -/
def proximityTiers : List (Nat × Score) := [(20, ⟨4⟩), (40, ⟨2⟩), (80, ⟨1⟩)]

/-- The contribution of the distance to the nearest keyword, none where there is no keyword. -/
def ofDistance (distance : Option Nat) : Score :=
  match distance with
  | none => .zero
  | some d => ((proximityTiers.find? (fun tier => d ≤ tier.1)).map Prod.snd).getD .zero

/-- What announces a telephone number, in lowercase. -/
def phoneWords : List Text := ["tel".toList, "call".toList]

/-- The candidate is a telephone number by the `window` characters before it, or by its digits. -/
def looksLikePhone (c : Candidate) (text : Text) (window : Int) : Bool :=
  let announcement := Text.slice text (max (c.first - window) 0) c.first
  announcement.contains '+' ||
    phoneWords.any (fun word => Text.occursIn word (Text.lower announcement)) || isLongNumber c

end Signal

/-! ### The judgement of a candidate -/

/-- The radius in which a money indicator counts, where no other is set. -/
def defaultMoneyRadius : Nat := 25

/-- The number of characters before a candidate that may announce a telephone number, where no
other is set. -/
def defaultPhoneWindow : Nat := 5

/-- What the signals look at, beside the candidate and its line. -/
structure Surroundings where
  text : Text
  /-- The lowercase copy of the text. -/
  lower : Text
  /-- The centres of the keywords, ascending. -/
  centres : List Int
  moneyIndicators : List Text
  hasSafetyKeyword : Bool
  moneyRadius : Int := defaultMoneyRadius
  phoneWindow : Int := defaultPhoneWindow
deriving Repr

namespace Breakdown

open Signal in
/-- The contributions of all signals to a candidate on a line. -/
def ofCandidate (s : Surroundings) (facts : LineFacts) (c : Candidate) : Breakdown :=
  { length := ofLength c.length
    numeric := given c.numeric ⟨1⟩
    longNumeric := given (isLongNumber c) ⟨-3⟩
    exactLine := given (facts.trimmed == c.code) ⟨5⟩
    lineKeyword := given facts.hasCodeWord ⟨4⟩
    assignment := given (facts.assigns c.code) ⟨3⟩
    keywordProximity := ofDistance (distanceToNearest (middle c.first c.last) s.centres)
    safety := given s.hasSafetyKeyword ⟨2⟩
    money := given (indicatorNear s.lower s.moneyIndicators c.first s.moneyRadius) ⟨-4⟩
    phoneShape := given (looksLikePhone c s.text s.phoneWindow) ⟨-5⟩ }

end Breakdown

/-- A candidate with its score and the signals that make it up. -/
structure ScoredCandidate where
  candidate : Candidate
  breakdown : Breakdown
  score : Score
deriving DecidableEq, Repr

namespace ScoredCandidate

/-- The score of a candidate, whose line is looked up in the index. -/
def of (s : Surroundings) (ix : LineIndex) (c : Candidate) : ScoredCandidate × LineIndex :=
  let ((_, facts), ix) := ix.lookUp c.first c.last
  let breakdown := Breakdown.ofCandidate s facts c
  ({ candidate := c, breakdown, score := breakdown.total }, ix)

/-- The scores of candidates, which share one line index. -/
def ofAll (s : Surroundings) : LineIndex → List Candidate → List ScoredCandidate
  | _, [] => []
  | ix, c :: cs =>
    let (scored, ix) := of s ix c
    scored :: ofAll s ix cs

end ScoredCandidate

/-! ### The winner -/

/-- The best of `best` and the entries behind it, an entry being better only if it exceeds. -/
def bestFrom {α : Type} (exceeds : α → α → Bool) (best : α) : List α → α
  | [] => best
  | x :: xs => bestFrom exceeds (if exceeds x best then x else best) xs

/-- The first of the best entries, none if there are no entries. -/
def firstBest? {α : Type} (exceeds : α → α → Bool) : List α → Option α
  | [] => none
  | x :: xs => some (bestFrom exceeds x xs)

/-- The candidate with the highest score, of equal ones the first. -/
def winner? (scored : List ScoredCandidate) : Option ScoredCandidate :=
  firstBest? (fun a b => a.score.exceeds b.score) scored

end Passcode
