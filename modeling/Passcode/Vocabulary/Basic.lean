import Passcode.Document.Basic
import Passcode.Keyword.List
import Passcode.Text.Quoted

/-!
# Vocabulary — the words of one locale

A vocabulary has four keyword lists and a canned message for each of the four occasions on which no
candidate can be named.  It is either read from a bundle of the store, and then has the locale of
that bundle, or made of lists that are given (`Vocabulary.given`).

A canned message that is missing or empty is replaced by the default one.
-/

namespace Passcode

/-- An occasion on which no candidate can be named. -/
inductive Occasion where
  | emptyMessage
  | noOtpKeyword
  | keywordButNoCode
  | parcelKeywordButNoCode
deriving DecidableEq, Repr

/-- A name that is not the name of an occasion. -/
structure UnknownOccasion where
  name : String
deriving DecidableEq, Repr

/-- The words for a name that is not the name of an occasion. -/
def UnknownOccasion.message (e : UnknownOccasion) : String :=
  String.ofList (Text.quoted e.name.toList) ++ " is not a valid ErrorKind"

namespace Occasion

/-- All occasions. -/
def all : List Occasion :=
  [.emptyMessage, .noOtpKeyword, .keywordButNoCode, .parcelKeywordButNoCode]

/-- The name of an occasion, which is the key of its message in a bundle. -/
def name : Occasion → String
  | .emptyMessage => "empty_message"
  | .noOtpKeyword => "no_otp_keyword"
  | .keywordButNoCode => "keyword_but_no_code"
  | .parcelKeywordButNoCode => "parcel_keyword_but_no_code"

/-- The occasion of a name. -/
def ofName (name : String) : Except UnknownOccasion Occasion :=
  match all.find? (fun o => o.name == name) with
  | some o => .ok o
  | none => .error ⟨name⟩

/-- The message of an occasion where no other is given. -/
def defaultMessage : Occasion → String
  | .emptyMessage => "Empty message"
  | .noOtpKeyword => "No OTP-like keywords and no candidate code found"
  | .keywordButNoCode =>
    "Contains OTP-like keywords but no numeric/alphanumeric candidate code found"
  | .parcelKeywordButNoCode => "Contains parcel pickup keywords but no candidate code found"

end Occasion

/-- Messages that may be given for the occasions. -/
abbrev GivenMessages := Occasion → Option String

/-- The message of an occasion, the default one if it is missing or empty. -/
def GivenMessages.get (given : GivenMessages) (o : Occasion) : String :=
  match given o with
  | some m => if m.isEmpty then o.defaultMessage else m
  | none => o.defaultMessage

/-- Four lists of keywords. -/
structure KeywordLists where
  otp : List Text
  safety : List Text
  money : List Text
  parcel : List Text
deriving DecidableEq, Repr

/-- The four lists in the form in which keywords are searched for. -/
def KeywordLists.inForm (l : KeywordLists) : KeywordLists :=
  { otp := (KeywordList.of l.otp).items
    safety := (KeywordList.of l.safety).items
    money := (KeywordList.of l.money).items
    parcel := (KeywordList.of l.parcel).items }

/-- The words of one locale. -/
structure Vocabulary where
  /-- The name of the bundle, none for lists that are given. -/
  locale : Option Text
  lists : KeywordLists
  message : Occasion → String

namespace Vocabulary

/-- The vocabulary of given lists and messages. -/
def given (lists : KeywordLists) (messages : GivenMessages) : Vocabulary :=
  { locale := none, lists := lists.inForm, message := messages.get }

/-- A short description of the vocabulary of a bundle. -/
def description (locale : Text) : String :=
  "BundleKeywordProvider(locale=" ++ String.ofList (Text.quoted locale) ++ ")"

end Vocabulary

end Passcode
