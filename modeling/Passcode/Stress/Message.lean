import Passcode.Stress.Draw
import Passcode.Text.Basic

/-!
# Stress messages — hostile messages out of a source of words

A stress message is a row of fragments, joined by nothing, a space or a line feed.  A fragment is a
fixed piece of text, a run of digits, a run of one separator, a row of random code points, or a code
in a template.  The messages depend on the source alone (`StressMessage.ofSource`); `embed` puts a
given code into a template.
-/

namespace Passcode

/-- Bounds for the parts of stress messages. -/
structure StressOptions where
  maxFragments : Int := 12
  maxDigitRun : Int := 64
  randomCodePoints : Int := 16
  maxRepeat : Int := 256
deriving DecidableEq, Repr

/-- A text with a place for a code. -/
structure Template where
  before : String
  after : String
deriving DecidableEq, Repr

/-- The template with a code in its place. -/
def Template.fill (t : Template) (code : Text) : Text := t.before.toList ++ code ++ t.after.toList

namespace StressMessage

/-- The templates of messages with a code. -/
def templates : List Template :=
  [⟨"Your OTP is ", ""⟩,
   ⟨"", " is your verification code. Do not share it."⟩,
   ⟨"Use code ", " to sign in. Valid for 10 minutes."⟩,
   ⟨"Login code: ", ""⟩,
   ⟨"您的验证码是", "，请勿泄露。"⟩,
   ⟨"【快递】您的取件码为", ""⟩,
   ⟨"인증번호 [", "]를 입력해 주세요"⟩]

/-- The fixed fragments. -/
def fixedFragments : List Text :=
  ["Rs 5,000 debited".toList, "call +1 800 555 0199".toList,
   "https://example.com/a/1234567".toList, "order id 99887766".toList, ['\u200B'], ['\n', '\n'],
   ['\t'], " - ".toList, "++++".toList, ['\u0130'], "١٢٣٤".toList, "ＡＢＣ１２３".toList, ['\uFEFF'],
   ":=:=".toList]

/-- The plain digits. -/
def plainDigits : Text := "0123456789".toList

/-- The characters of which a run may be made. -/
def repeatable : Text := "-+ 0a:\n".toList

/-- What may stand between two fragments. -/
def separators : List Text := [[], [' '], ['\n']]

/-- The character of a number, a space for the numbers that are halves of pairs. -/
def charOf (n : Int) : Char :=
  if 0xD800 ≤ n && n ≤ 0xDFFF then ' ' else Char.ofNat n.toNat

/-- The texts with `separator` between any two. -/
def joinWith (separator : Text) : List Text → Text
  | [] => []
  | [t] => t
  | t :: ts => t ++ separator ++ joinWith separator ts

/-- The first so many tenths or hundredths of a roll. -/
def share (digits : Nat) (exponent : Int) : Binary64 := .ofDecimal false digits exponent

variable {σ : Type} [WordSource σ] (patience : Nat)

/-- A run of digits. -/
def drawDigits (o : StressOptions) : Draw σ Text := do
  let n ← Draw.between patience 1 o.maxDigitRun
  Draw.times (Draw.choice patience plainDigits) n.toNat

/-- A run of one character. -/
def drawRepeat (o : StressOptions) : Draw σ Text := do
  let c ← Draw.choice patience repeatable
  let n ← Draw.between patience 1 o.maxRepeat
  return List.replicate n.toNat c

/-- A row of random code points. -/
def drawCodePoints (o : StressOptions) : Draw σ Text := do
  let n ← Draw.between patience 1 o.randomCodePoints
  let ns ← Draw.times (Draw.between patience 0x20 0x2FFFF) n.toNat
  return ns.map charOf

/-- A code of three to eight digits in a template. -/
def drawTemplate : Draw σ Text := do
  let code ← Draw.between patience 100 99999999
  let template ← Draw.choice patience templates
  return template.fill (Binary64.digitsOf code.toNat)

/-- One fragment, its kind being chosen by a roll. -/
def drawFragment (o : StressOptions) : Draw σ Text := do
  let roll ← Draw.unit
  if roll.lt (share 3 (-1)) then Draw.choice patience fixedFragments
  else if roll.lt (share 5 (-1)) then drawDigits patience o
  else if roll.lt (share 65 (-2)) then drawRepeat patience o
  else if roll.lt (share 85 (-2)) then drawCodePoints patience o
  else drawTemplate patience

/-- One message. -/
def draw (o : StressOptions) : Draw σ Text := do
  let n ← Draw.between patience 1 o.maxFragments
  let fragments ← Draw.times (drawFragment patience o) n.toNat
  let separator ← Draw.choice patience separators
  return joinWith separator fragments

/-- So many messages. -/
def drawMany (o : StressOptions) (count : Nat) : Draw σ (List Text) :=
  Draw.times (draw patience o) count

/-- A code in a template that is drawn. -/
def drawEmbedded (code : Text) : Draw σ Text := do
  let template ← Draw.choice patience templates
  return template.fill code

/-- So many messages of a source. -/
def ofSource (s : σ) (count : Nat) (o : StressOptions) : Except DrawFault (List Text) :=
  (drawMany patience o count).valueFrom s

/-! ### By seed -/

/-- So many messages of a seed. -/
def ofSeed (seed : Int) (count : Nat) (o : StressOptions) : Except DrawFault (List Text) :=
  ofSource Draw.usualPatience (Twister.ofSeed seed) count o

/-- A code in the template of a seed. -/
def embed (seed : Int) (code : Text) : Except DrawFault Text :=
  (drawEmbedded Draw.usualPatience code).valueFrom (Twister.ofSeed seed)

end StressMessage

end Passcode
