import Passcode.Command.Standard
import Passcode.Document.Printer

/-!
# Run — a command line from its arguments to its outcome

`Command.run` works on a folder of files, an environment and a store of bundles (`Workplace`).  Each
command is written as its stages, in the order in which they come:

* it reads the message or the file of messages;
* it loads settings, and builds a detector from them and from the vocabulary of their locale;
* it explains the messages;
* it prints the rows, or writes them into a file.

A command that finds a fault tells it and ends the run with an exit code: 2 for arguments that ask
for nothing that can be done, 3 for a file that cannot be opened, read as text or written, and 4 for
settings and bundles.  A fault that no command answers escapes, and the exit code is 1.
-/

namespace Passcode

/-- What a run works on. -/
structure Workplace where
  folder : Folder
  /-- The locale that the environment gives. -/
  envLocale : Option Text
  store : Store
  tools : Tools := .standard
  /-- Behind how many characters the writing of a text breaks off in a file that could be opened,
  and the words for it. -/
  breaksOff : List Text → Text → Option (Nat × String) := fun _ _ => none

namespace Command

variable (w : Workplace)

/-! ### Speaking -/

/-- Prints text on the standard output, which is no terminal. -/
def print (text : Text) : Stage Unit := .perform (.printed (w.tools.plain text))

/-- Tells words on the error output, which is no terminal. -/
def tell (words : Text) : Stage Unit := .perform (.told (w.tools.plain (words ++ ['\n'])))

/-- Ends the run with an exit code, and tells the words if there are any. -/
def leave {α : Type} (exitCode : Nat) (words : Text) : Stage α := do
  if !words.isEmpty then
    tell w words
  .stop (.exit exitCode)

/-- Ends the run with an exit code and the first line of the words. -/
def leaveInShort {α : Type} (exitCode : Nat) (words : String) : Stage α :=
  match Text.splitLines words.toList with
  | first :: _ => leave w exitCode first
  | [] => .stop (.raised "list index out of range")

/-! ### Reading -/

/-- The text of an input file.  The name of its encoding is looked at before the file. -/
def readText (path encoding : Text) : Stage Text :=
  let place := Place.of path
  let fail (words : String) : Stage Text := leave w 3 (place.shown ++ ": ".toList ++ words.toList)
  if encoding.contains '\x00' then .stop (.escaped .nullCharacter)
  else
    match w.folder.read place with
    | .error .nullCharacter => .stop (.escaped .nullCharacter)
    | .error fault => fail fault.message
    | .ok bytes =>
      match w.tools.decode encoding bytes with
      | .ok text => pure (Text.unifyBreaks text)
      | .error (.undecodable words) => fail words
      | .error .unknown => .stop (.escaped (.unknownEncoding encoding))
      | .error .noByteOrderMark => .stop (.escaped .noByteOrderMark)
      | .error (.other words) => .stop (.raised words)

/-- The document of the user, if the command line names one. -/
def readOverride : Option Text → Stage (Option Document)
  | none => pure none
  | some path =>
    match w.folder.read (Place.of path) with
    | .error .nullCharacter => leaveInShort w 4 FileFault.nullCharacter.message
    | .error fault => leave w 3 fault.message.toList
    | .ok bytes =>
      match w.tools.document bytes with
      | .ok document => pure (some document)
      | .error words => leaveInShort w 4 words

/-- A text that is there and not empty. -/
def given (t : Option Text) : Option Text := t.filter (fun l => !l.isEmpty)

/-- The settings of a run, the locale of the command line standing over all others. -/
def loadSettings (config locale : Option Text) : Stage Settings := do
  let override ← readOverride w config
  match Settings.loadBy w.tools.conversion override w.envLocale with
  | .error fault => leaveInShort w 4 fault.message
  | .ok settings => pure { settings with locale := (given locale).getD settings.locale }

/-- The vocabulary of a locale. -/
def findVocabulary (locale : Text) : Stage Vocabulary := do
  match ← Stage.ofLogged (w.store.vocabularyBy w.tools.rules (some locale)) with
  | .ok vocabulary => pure vocabulary
  | .error fault =>
    if fault.escapes then .stop (.raised fault.message) else leave w 4 fault.message.toList

/-- The detector of a run. -/
def buildDetector (config locale : Option Text) : Stage Detector := do
  let settings ← loadSettings w config locale
  let vocabulary ← findVocabulary w settings.locale
  pure (.of settings vocabulary)

/-! ### The commands -/

/-- A document on a line of its own. -/
def line (d : Document) : Text := d.render ++ ['\n']

/-- The text of the message that a request is about. -/
def messageOf (r : DetectRequest) : Stage Text :=
  match r.message, r.input with
  | none, none => leave w 2 "Provide a MESSAGE argument or --in FILE".toList
  | some _, some _ => leave w 2 "MESSAGE and --in are mutually exclusive".toList
  | some message, none => pure message
  | none, some path => readText w path r.encoding

/-- The explanation of a message. -/
def explain (d : Detector) (message : Text) : Stage Explanation :=
  match d.explain message with
  | .error fault => .stop (.escaped (.detection fault))
  | .ok l => .ofLogged l

/-- The row of an explanation: all of it, or its verdict alone. -/
def rowOf (explain : Bool) (e : Explanation) : Text :=
  line (if explain then e.toDocument else e.verdict.toDocument)

/-- Classifies one message. -/
def detect (r : DetectRequest) : Stage Unit := do
  let message ← messageOf w r
  let d ← buildDetector w r.config r.locale
  let e ← explain d message
  print w (rowOf r.explain e)

/-- The rows of messages, and how many of them are of a kind that carries a code. -/
def rows (d : Detector) : List Text → Stage (Text × Nat)
  | [] => pure ([], 0)
  | message :: rest => do
    let e ← explain d message
    let (text, hits) ← rows d rest
    pure (rowOf false e ++ text, if e.verdict.isOtp || e.verdict.isParcel then hits + 1 else hits)

/-- Writes text into a file, which is emptied first. -/
def write (names : List Text) (text : Text) : Stage Unit := do
  .perform (.wrote names [])
  match w.breaksOff names text with
  | none => .perform (.wrote names text)
  | some (count, words) =>
    .perform (.wrote names (text.take count))
    leave w 3 words.toList

/-- Puts the rows of a batch where they belong. -/
def deliver (output : Option Text) (text : Text) : Stage Unit :=
  match output with
  | none => print w text
  | some path =>
    match w.folder.target (Place.of path) with
    | .error .nullCharacter => .stop (.escaped .nullCharacter)
    | .error fault => leave w 3 fault.message.toList
    | .ok names => write w names text

/-- The last words of a batch. -/
def summary (messages hits : Nat) : String :=
  "Processed " ++ toString messages ++ " messages, " ++ toString hits ++ " with codes"

/-- Classifies every line of a file. -/
def batch (r : BatchRequest) : Stage Unit := do
  let text ← readText w r.input r.encoding
  let d ← buildDetector w r.config r.locale
  let messages := Text.splitLines text
  let (text, hits) ← rows d messages
  deliver w r.output text
  if r.verbose then
    tell w (summary messages.length hits).toList

/-- The document of the keyword lists of a vocabulary. -/
def keywordsDocument (v : Vocabulary) : Document :=
  let texts (ts : List Text) : Document := .list (ts.map (fun t => .string (String.ofList t)))
  .mapping
    [("locale", Verdict.codeDocument v.locale), ("otp_keywords", texts v.lists.otp),
     ("safety_keywords", texts v.lists.safety), ("money_indicators", texts v.lists.money),
     ("parcel_keywords", texts v.lists.parcel)]

/-- The locale whose keyword lists are asked for. -/
def localeOrDefault (locale : Option Text) : Stage Text :=
  match given locale with
  | some l => pure l
  | none =>
    match Settings.loadBy w.tools.conversion none w.envLocale with
    | .error fault => .stop (.raised fault.message)
    | .ok settings => pure settings.locale

/-- Prints the keyword lists of a locale. -/
def keywords (locale : Option Text) : Stage Unit := do
  let l ← localeOrDefault w locale
  let v ← findVocabulary w l
  print w (line (keywordsDocument v))

/-- The stages of a request. -/
def answer : Request → Stage Unit
  | .detect r => detect w r
  | .batch r => batch w r
  | .keywords locale => keywords w locale

/-! ### The outcome -/

/-- The outlet of the entries of a request: only the commands that classify messages open one. -/
def outletOf : Request → Outlet
  | .detect r => Outlet.initial.configure r.verbose
  | .batch r => Outlet.initial.configure r.verbose
  | .keywords _ => Outlet.initial

/-- The outcome of a request. -/
def execute (request : Request) : Outcome :=
  let s := answer w request
  { outlet := outletOf request
    effects := s.effects
    stop := match s.value with
      | .ok _ => none
      | .error stop => some stop }

/-- The outcome of a command line, behind the name of the program. -/
def run (arguments : List Text) : Outcome :=
  match w.tools.parse arguments with
  | .error outcome => outcome
  | .ok request => execute w request

end Command

end Passcode
