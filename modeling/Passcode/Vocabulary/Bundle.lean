import Passcode.Text.Encoding
import Passcode.Vocabulary.Store

/-!
# Bundle — the fields that a bundle must have

A bundle has four lists of strings and a mapping with a string for each occasion, and no other
fields.  Every field that is missing, unknown or of a wrong kind is a fault, and so is every entry
of a list that is no string (`Bundle.faults`).  By the usual rules a bundle without faults is
accepted, and a name is refused whose file name is longer than the system of files allows
(`Bundle.Rules.usual`).
-/

namespace Passcode

namespace Bundle

/-- The fields of a bundle that hold keywords. -/
def listFields : List String :=
  ["otp_keywords", "safety_keywords", "money_indicators", "parcel_keywords"]

/-- The field of a bundle that holds its messages. -/
def messageField : String := "errors"

/-- The document is a string. -/
def isString : Document → Bool
  | .string _ => true
  | _ => false

/-- The faults of a field that holds keywords. -/
def listFaults : Option Document → Nat
  | some (.list items) => items.countP (fun d => !isString d)
  | _ => 1

/-- The keys that are not among the known ones. -/
def unknownKeys (fields : Fields) (known : List String) : Nat :=
  fields.countP (fun f => !known.contains f.1)

/-- The faults of the field that holds the messages. -/
def messageFaults : Option Document → Nat
  | some (.mapping fields) =>
    Occasion.all.countP (fun o => !((Fields.get? fields o.name).any isString)) +
      unknownKeys fields (Occasion.all.map Occasion.name)
  | _ => 1

/-- The number of faults of a bundle. -/
def faults (fields : Fields) : Nat :=
  (listFields.map (fun key => listFaults (fields.get? key))).foldl (· + ·) 0 +
    messageFaults (fields.get? messageField) + unknownKeys fields (messageField :: listFields)

/-- The strings of a list. -/
def strings : Option Document → List Text
  | some (.list items) =>
    items.filterMap (fun d => match d with
      | .string s => some s.toList
      | _ => none)
  | _ => []

/-- The keyword lists of a bundle. -/
def lists (fields : Fields) : KeywordLists :=
  { otp := strings (fields.get? "otp_keywords")
    safety := strings (fields.get? "safety_keywords")
    money := strings (fields.get? "money_indicators")
    parcel := strings (fields.get? "parcel_keywords") }

/-- The messages of a bundle. -/
def messages (fields : Fields) : GivenMessages := fun o =>
  match fields.get? messageField with
  | some (.mapping ms) =>
    match Fields.get? ms o.name with
    | some (.string s) => some s
    | _ => none
  | _ => none

/-- The greatest length of a file name, in bytes. -/
def longestFileName : Nat := 255

/-- What is behind the name of a bundle in the name of its file. -/
def fileEnding : Text := ".yml".toList

/-- The file name of a bundle, up to a slash in it, is longer than the system of files allows. -/
def isTooLong (name : Text) : Bool :=
  longestFileName < (Text.utf8Bytes ((name ++ fileEnding).takeWhile (· != '/'))).length

/-- The usual rules. -/
def Rules.usual : Rules :=
  { refuses := isTooLong
    check := fun fields =>
      if faults fields = 0 then .ok { lists := lists fields, messages := messages fields }
      else .error (faults fields) }

end Bundle

/-- The vocabulary of a locale by the usual rules. -/
def Store.vocabulary (store : Store) (locale : Option Text) :
    Logged (Except BundleFault Vocabulary) :=
  store.vocabularyBy .usual locale

end Passcode
