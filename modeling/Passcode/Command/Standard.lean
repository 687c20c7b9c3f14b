import Passcode.Command.Arguments
import Passcode.Command.Folder
import Passcode.Command.Tools
import Passcode.Document.Reader
import Passcode.Settings.Leaf
import Passcode.Text.ControlSequence
import Passcode.Text.Lines
import Passcode.Vocabulary.Bundle

/-!
# Standard — the tools of the program

The program takes its arguments apart by the grammars of its three commands, reads five encodings,
and reads settings that are written as JSON.  The paths that a request names are looked at before
its command starts, and a path that holds the character of number zero is a fault then.

This is one choice of tools.  The grammars have no place for a request for help, other encodings are
not known here, and other notations of settings are not read; the commands work the same way with
tools that do all of this, and what is proved of them holds of all tools with the properties that
are asked for.
-/

namespace Passcode

namespace Standard

/-- A path of the request holds the character of number zero. -/
def holdsNull (request : Request) : Bool :=
  request.paths.any (fun path => (Place.of path).holdsNull)

/-- The outcome of a run that stops before its command starts. -/
def refusal (stop : Stop) : Outcome := { outlet := .initial, effects := [], stop := some stop }

/-- The request of a command line. -/
def parse (arguments : List Text) : Except Outcome Request :=
  match Request.ofArguments arguments with
  | .error _ => .error (refusal .usage)
  | .ok request =>
    if holdsNull request then .error (refusal (.escaped .nullCharacter)) else .ok request

/-- The text of bytes in the encoding of some name. -/
def decode (name : Text) (bytes : List UInt8) : Except CodecFault Text :=
  match Encoding.ofName? name with
  | none => .error .unknown
  | some e =>
    match e.decode bytes with
    | .error .noByteOrderMark => .error .noByteOrderMark
    | .error (.flaw flaw) => .error (.undecodable flaw.message)
    | .ok text => .ok text

/-- The text of a settings file without a byte order mark at its start. -/
def withoutMark : Text → Text
  | c :: cs => if c = '\uFEFF' then cs else c :: cs
  | [] => []

/-- The words for a settings file that is no document. -/
def noDocument : String := "while parsing a document"

/-- The document of a settings file; a blank file is null. -/
def document (bytes : List UInt8) : Except String Document :=
  match Encoding.utf8.decode bytes with
  | .error (.flaw flaw) => .error flaw.message
  | .error .noByteOrderMark => .error noDocument
  | .ok text =>
    let text := withoutMark (Text.unifyBreaks text)
    if (Text.trim text).isEmpty then .ok .null
    else
      match Document.ofText? text with
      | some d => .ok d
      | none => .error noDocument

end Standard

/-- The tools of the program. -/
def Tools.standard : Tools :=
  { parse := Standard.parse
    decode := Standard.decode
    document := Standard.document
    conversion := .generous
    rules := .usual
    plain := Text.withoutControlSequences }

end Passcode
