import Passcode.Command.Request
import Passcode.Command.Stage
import Passcode.Settings.Conversion
import Passcode.Text.Encoding
import Passcode.Vocabulary.Store

/-!
# Tools — what the commands leave to others

The commands do not take arguments apart, know no encodings, and read no documents themselves.
They are given these things (`Tools`), and what they need to know of them are the properties
defined here: that ordinary text goes out as it is (`Tools.LeavesPlain`), that the default encoding
drops one byte order mark (`Tools.DropsMark`), and that what is wrong with a document is said in
words (`Tools.GivesWords`).
-/

namespace Passcode

/-- Why the bytes of a file are not read as text. -/
inductive CodecFault where
  /-- There is no encoding of that name. -/
  | unknown
  | noByteOrderMark
  /-- The bytes encode nothing, with the words for it. -/
  | undecodable (words : String)
  /-- Any other fault, with its words. -/
  | other (words : String)
deriving DecidableEq, Repr

/-- What the commands leave to others. -/
structure Tools where
  /-- The request of a command line, or the outcome if no command starts. -/
  parse : List Text → Except Outcome Request
  /-- The text of bytes in the encoding of some name. -/
  decode : Text → List UInt8 → Except CodecFault Text
  /-- The document of a settings file, or what is wrong with it. -/
  document : List UInt8 → Except String Document
  /-- What the leaves of settings are taken for. -/
  conversion : Conversion
  /-- The rules for bundles. -/
  rules : Bundle.Rules
  /-- The text as an output shows it that is no terminal. -/
  plain : Text → Text

namespace Tools

/-- Text without an escape character goes out as it is. -/
def LeavesPlain (t : Tools) : Prop := ∀ text : Text, '\x1B' ∉ text → t.plain text = text

/-- The bytes of a text in UTF-8 are read as the text in the default encoding, less one byte order
mark at their start. -/
structure DropsMark (t : Tools) : Prop where
  marked (text : Text) :
    t.decode Request.defaultEncoding (Encoding.mark ++ Text.utf8Bytes text) = .ok text
  unmarked (text : Text) (h : text.head? ≠ some '\uFEFF') :
    t.decode Request.defaultEncoding (Text.utf8Bytes text) = .ok text

/-- There are words for whatever is wrong with a document. -/
def GivesWords (t : Tools) : Prop := ∀ bytes words, t.document bytes = .error words → words ≠ ""

end Tools

end Passcode
