import Passcode.Journal
import Passcode.Vocabulary.Basic
import Passcode.Vocabulary.Chinese
import Passcode.Vocabulary.English
import Passcode.Vocabulary.Locale

/-!
# Store — the bundles, and the vocabulary of a locale

A store has a file for each bundle name.  `Store.vocabularyBy` reads the default bundle, lays over
it the first bundle that exists among the names to try for the locale, and has the result checked.
When the names are exhausted, and the default bundle is not one of them, a warning is written and
the default bundle stands alone.

Two things are up to others (`Bundle.Rules`): which names the system of files refuses, and what a
bundle must have in its fields.  A bundle is at fault when its text is no document, is not a
mapping, or, once laid over the default one, is refused by the check.  A file whose bytes are no
text, and a name that is refused, are faults that nothing here answers (`BundleFault.escapes`).
-/

namespace Passcode

/-- What the file of a bundle holds. -/
inductive BundleFile where
  /-- Text that is no document. -/
  | unreadable
  /-- Bytes that are no text, or that cannot be read for another reason that no reader of documents
  answers, with the words for it. -/
  | undecodable (words : String)
  | holds (document : Document)

/-- The files of the bundles under their names. -/
abbrev Store := List (Text × BundleFile)

/-- Why there is no vocabulary for a locale. -/
inductive BundleFault where
  | unreadable (name : Text)
  | notMapping (name : Text)
  /-- The store lacks the default bundle. -/
  | defaultMissing
  /-- So many fields are missing, unknown or of a wrong kind. -/
  | invalid (name : Text) (faults : Nat)
  /-- The bytes of a bundle are no text, or cannot be read for another such reason. -/
  | undecodable (words : String)
  /-- The system of files refuses the name of a bundle. -/
  | refused (name : Text)
deriving DecidableEq, Repr

/-- The heading of a list of faults in a thing. -/
def faultCount (n : Nat) (thing : String) : String :=
  toString n ++ (if n = 1 then " validation error for " else " validation errors for ") ++ thing

namespace BundleFault

/-- The words for a fault of a bundle. -/
def message : BundleFault → String
  | .unreadable name =>
    "keyword bundle " ++ String.ofList (Text.quoted name) ++ " is not valid YAML"
  | .notMapping name =>
    "keyword bundle " ++ String.ofList (Text.quoted name) ++ " must be a mapping"
  | .defaultMissing =>
    "default keyword bundle " ++ String.ofList (Text.quoted defaultLocale) ++ " is missing"
  | .invalid name n =>
    "keyword bundle " ++ String.ofList (Text.quoted name) ++ " is invalid: " ++
      faultCount n "KeywordBundle"
  | .undecodable words => words
  | .refused name => "File name too long: " ++ String.ofList (Text.quoted name)

/-- The fault is not one of the faults that a bundle is said to have, and nothing answers it. -/
def escapes : BundleFault → Bool
  | .undecodable _ => true
  | .refused _ => true
  | _ => false

end BundleFault

namespace Bundle

/-- The words of a bundle that was checked. -/
structure Words where
  lists : KeywordLists
  messages : GivenMessages

/-- What a store leaves to others. -/
structure Rules where
  /-- The system of files refuses the name of a bundle. -/
  refuses : Text → Bool
  /-- The words of a bundle, or how many of its fields are missing, unknown or of a wrong kind. -/
  check : Fields → Except Nat Words

/-- The vocabulary of a bundle, if nothing is at fault. -/
def vocabulary (rules : Rules) (name : Text) (fields : Fields) : Except BundleFault Vocabulary :=
  match rules.check fields with
  | .ok words =>
    .ok { locale := some name, lists := words.lists.inForm, message := words.messages.get }
  | .error faults => .error (.invalid name faults)

end Bundle

namespace Store

/-- The file of a bundle. -/
def file? (store : Store) (name : Text) : Option BundleFile :=
  (store.find? (fun b => b.1 == name)).map Prod.snd

/-- The fields of a bundle, if there is such a bundle. -/
def read (store : Store) (rules : Bundle.Rules) (name : Text) :
    Except BundleFault (Option Fields) :=
  if rules.refuses name then .error (.refused name)
  else
    match store.file? name with
    | none => .ok none
    | some .unreadable => .error (.unreadable name)
    | some (.undecodable words) => .error (.undecodable words)
    | some (.holds document) =>
      match document.orEmpty with
      | .mapping fields => .ok (some fields)
      | _ => .error (.notMapping name)

/-- What a search among the names to try ends with. -/
inductive Found where
  /-- The default bundle is the one to take. -/
  | theDefault
  /-- A bundle to lay over the default one. -/
  | bundle (name : Text) (fields : Fields)
  /-- There is none for any of the names. -/
  | exhausted

/-- The first bundle that exists among the names, the search ending at the default one. -/
def search (store : Store) (rules : Bundle.Rules) : List Text → Except BundleFault Found
  | [] => .ok .exhausted
  | name :: rest =>
    if name = defaultLocale then .ok .theDefault
    else
      match store.read rules name with
      | .error fault => .error fault
      | .ok (some fields) => .ok (.bundle name fields)
      | .ok none => search store rules rest

/-- The name under which the store writes its entries. -/
def writer : String := "otpscan.keywords.provider"

/-- The warning that no bundle was found for a locale. -/
def noBundle (locale : Option Text) : Entry :=
  let shown := match locale with
    | some l => String.ofList (Text.quoted l)
    | none => "None"
  { level := .warning
    writer
    words := "No keyword bundle for locale " ++ shown ++ ", using " ++
      String.ofList (Text.quoted defaultLocale) }

/-- The vocabulary of a locale. -/
def vocabularyBy (store : Store) (rules : Bundle.Rules) (locale : Option Text) :
    Logged (Except BundleFault Vocabulary) :=
  match store.read rules defaultLocale with
  | .error fault => .quiet (.error fault)
  | .ok none => .quiet (.error .defaultMissing)
  | .ok (some base) =>
    match store.search rules (localeCandidates locale) with
    | .error fault => .quiet (.error fault)
    | .ok .theDefault => .quiet (Bundle.vocabulary rules defaultLocale base)
    | .ok (.bundle name fields) =>
      .quiet (Bundle.vocabulary rules name (Document.mergeFields base fields))
    | .ok .exhausted => ⟨[noBundle locale], Bundle.vocabulary rules defaultLocale base⟩

/-- The names of all bundles, sorted by code points. -/
def names (store : Store) : List Text :=
  (store.map Prod.fst).mergeSort (fun a b => decide (String.ofList a ≤ String.ofList b))

/-- The bundles that come with the library. -/
def packaged : Store :=
  [(defaultLocale, .holds (.mapping englishBundle)),
   ("zh".toList, .holds (.mapping chineseBundle))]

end Store

end Passcode
