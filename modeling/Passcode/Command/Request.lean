import Passcode.Text.Basic

/-!
# Request — what a run is asked for

There are three commands: one classifies a message, one classifies every line of a file, and one
prints the keyword lists of a locale.
-/

namespace Passcode

/-- Classify one message. -/
structure DetectRequest where
  message : Option Text
  input : Option Text
  config : Option Text
  locale : Option Text
  explain : Bool
  encoding : Text
  verbose : Bool
deriving DecidableEq, Repr

/-- Classify every line of a file. -/
structure BatchRequest where
  input : Text
  output : Option Text
  config : Option Text
  locale : Option Text
  encoding : Text
  verbose : Bool
deriving DecidableEq, Repr

/-- What a command line asks for. -/
inductive Request where
  | detect (r : DetectRequest)
  | batch (r : BatchRequest)
  /-- Print the keyword lists of a locale. -/
  | keywords (locale : Option Text)
deriving DecidableEq, Repr

namespace Request

/-- The paths that a request names. -/
def paths : Request → List Text
  | .detect r => r.input.toList ++ r.config.toList
  | .batch r => r.input :: r.config.toList ++ r.output.toList
  | .keywords _ => []

/-- The encoding of files where no other is asked for. -/
def defaultEncoding : Text := "utf-8-sig".toList

end Request

end Passcode
