import Passcode.Command.Request

/-!
# Arguments — what a command line asks for

The first argument names one of three commands, and the others are its options and its positional
arguments, in any order (`Request.ofArguments`).

An option has a value or is a switch.  The value stands behind an equals sign or is the next
argument, whatever that looks like; a switch has none.  Switches of one letter may be written
together behind one dash.  Two dashes alone end the options.  Of an option that is given twice the
last value counts.
-/

namespace Passcode

/-- The options of a command. -/
structure Grammar where
  /-- The spellings of the options that have a value, with the names they are kept under. -/
  valued : List (Text × String)
  /-- The spellings of the switches. -/
  switches : List (Text × String)
  /-- The switches of one letter. -/
  letters : List (Char × String)

/-- The arguments of a command, apart. -/
structure Parsed where
  /-- The values of the options, the last one first. -/
  values : List (String × Text)
  switches : List String
  /-- The positional arguments. -/
  positional : List Text
deriving DecidableEq, Repr

/-- The arguments do not fit the command. -/
structure UsageFault where
deriving DecidableEq, Repr

namespace Parsed

/-- No arguments. -/
def empty : Parsed := { values := [], switches := [], positional := [] }

/-- The value of an option, if it is given. -/
def value? (p : Parsed) (name : String) : Option Text :=
  (p.values.find? (fun v => v.1 == name)).map Prod.snd

/-- The switch is given. -/
def has (p : Parsed) (name : String) : Bool := p.switches.contains name

/-- Adds a switch. -/
def withSwitch (p : Parsed) (name : String) : Parsed := { p with switches := name :: p.switches }

/-- Adds a value. -/
def withValue (p : Parsed) (name : String) (value : Text) : Parsed :=
  { p with values := (name, value) :: p.values }

/-- Adds positional arguments behind those that are there. -/
def withPositional (p : Parsed) (arguments : List Text) : Parsed :=
  { p with positional := p.positional ++ arguments }

end Parsed

namespace Grammar

/-- The name under which a spelling is kept. -/
def find? (spellings : List (Text × String)) (spelling : Text) : Option String :=
  (spellings.find? (fun s => s.1 == spelling)).map Prod.snd

/-- The spelling of an option, and the value behind its equals sign. -/
def splitEquals (argument : Text) : Text × Option Text :=
  match argument.dropWhile (· != '=') with
  | [] => (argument, none)
  | _ :: value => (argument.takeWhile (· != '='), some value)

/-- Adds the switches whose letters are written together. -/
def withLetters (g : Grammar) : Parsed → Text → Except UsageFault Parsed
  | p, [] => .ok p
  | p, c :: cs =>
    match g.letters.find? (fun l => l.1 == c) with
    | some l => withLetters g (p.withSwitch l.2) cs
    | none => .error ⟨⟩

/-- The argument starts with a dash and goes on. -/
def looksLikeOption : Text → Bool
  | '-' :: _ :: _ => true
  | _ => false

/-- Takes the arguments apart, behind those that are done. -/
def parseFrom (g : Grammar) : Parsed → List Text → Except UsageFault Parsed
  | p, [] => .ok p
  | p, argument :: rest =>
    if argument = ['-', '-'] then .ok (p.withPositional rest)
    else if looksLikeOption argument then
      let (spelling, attached) := splitEquals argument
      match find? g.valued spelling, attached with
      | some name, some value => parseFrom g (p.withValue name value) rest
      | some name, none =>
        match rest with
        | value :: rest => parseFrom g (p.withValue name value) rest
        | [] => .error ⟨⟩
      | none, _ =>
        match find? g.switches spelling, attached with
        | some name, none => parseFrom g (p.withSwitch name) rest
        | some _, some _ => .error ⟨⟩
        | none, _ =>
          if ['-', '-'].isPrefixOf argument then .error ⟨⟩
          else
            match g.withLetters p (argument.drop 1) with
            | .ok p => parseFrom g p rest
            | .error fault => .error fault
    else parseFrom g (p.withPositional [argument]) rest

/-- Takes the arguments of a command apart. -/
def parse (g : Grammar) (arguments : List Text) : Except UsageFault Parsed :=
  g.parseFrom .empty arguments

end Grammar

/-! ### Requests -/

namespace Request

/-- The options that more than one command has. -/
def sharedOptions : List (Text × String) :=
  [("--in".toList, "in"), ("--input".toList, "in"), ("--config".toList, "config"),
   ("--locale".toList, "locale"), ("--encoding".toList, "encoding")]

/-- The options of the command for one message. -/
def detectGrammar : Grammar :=
  { valued := sharedOptions
    switches := [("--explain".toList, "explain"), ("--verbose".toList, "verbose")]
    letters := [('v', "verbose")] }

/-- The options of the command for the lines of a file. -/
def batchGrammar : Grammar :=
  { valued := ("--out".toList, "out") :: sharedOptions
    switches := [("--verbose".toList, "verbose")]
    letters := [('v', "verbose")] }

/-- The options of the command for keyword lists. -/
def keywordsGrammar : Grammar :=
  { valued := [("--locale".toList, "locale")], switches := [], letters := [] }

/-- The request of the arguments of `detect`. -/
def ofDetect (p : Parsed) : Except UsageFault Request :=
  let request (message : Option Text) : Request :=
    .detect
      { message, input := p.value? "in", config := p.value? "config", locale := p.value? "locale",
        explain := p.has "explain", encoding := (p.value? "encoding").getD defaultEncoding,
        verbose := p.has "verbose" }
  match p.positional with
  | [] => .ok (request none)
  | [message] => .ok (request (some message))
  | _ => .error ⟨⟩

/-- The request of the arguments of `batch`. -/
def ofBatch (p : Parsed) : Except UsageFault Request :=
  match p.positional, p.value? "in" with
  | [], some input =>
    .ok (.batch
      { input, output := p.value? "out", config := p.value? "config", locale := p.value? "locale",
        encoding := (p.value? "encoding").getD defaultEncoding, verbose := p.has "verbose" })
  | _, _ => .error ⟨⟩

/-- The request of the arguments of `keywords`. -/
def ofKeywords (p : Parsed) : Except UsageFault Request :=
  match p.positional with
  | [] => .ok (.keywords (p.value? "locale"))
  | _ => .error ⟨⟩

/-- The request of a command and its arguments. -/
def ofCommand (name : Text) (arguments : List Text) : Except UsageFault Request :=
  if name = "detect".toList then (detectGrammar.parse arguments).bind ofDetect
  else if name = "batch".toList then (batchGrammar.parse arguments).bind ofBatch
  else if name = "keywords".toList then (keywordsGrammar.parse arguments).bind ofKeywords
  else .error ⟨⟩

/-- The request of a command line, behind the name of the program. -/
def ofArguments : List Text → Except UsageFault Request
  | ['-', '-'] :: name :: arguments => ofCommand name arguments
  | name :: arguments => ofCommand name arguments
  | [] => .error ⟨⟩

end Request

end Passcode
