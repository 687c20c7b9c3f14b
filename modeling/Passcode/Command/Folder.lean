import Passcode.Text.Quoted
import Passcode.Text.Basic

/-!
# Folder — the files a run can see

A run of the command line starts in a folder of files and directories.  A path is cut at its
slashes; empty parts and single full stops do not count, and two full stops lead to the directory
above (`Place.of`, `Place.enter`).  What stands outside the folder is known under the full stops or
the slashes with which its path starts.  Besides what is not there, the system of files may refuse
to open what is, for reading or for writing (`Folder.refuses`).
-/

namespace Passcode

/-- A path: the slashes at its start, and the names that lead along it. -/
structure Place where
  root : Text
  parts : List Text
deriving DecidableEq, Repr

namespace Place

/-- The stretches of a text between its slashes. -/
def pieces : Text → List Text
  | [] => [[]]
  | c :: cs =>
    if c = '/' then [] :: pieces cs
    else
      match pieces cs with
      | p :: ps => (c :: p) :: ps
      | [] => [[c]]

/-- The slashes with which a path starts: none, one, or exactly two. -/
def rootOf : Text → Text
  | '/' :: '/' :: '/' :: _ => ['/']
  | '/' :: '/' :: _ => ['/', '/']
  | '/' :: _ => ['/']
  | _ => []

/-- The path that a text writes. -/
def of (t : Text) : Place :=
  { root := rootOf t, parts := (pieces t).filter (fun p => !p.isEmpty && p != ['.']) }

/-- Names with slashes between them. -/
def slashed : List Text → Text
  | [] => []
  | [p] => p
  | p :: ps => p ++ '/' :: slashed ps

/-- The names that lead to where a path starts: none, or the slashes of its root. -/
def origin (p : Place) : List Text := if p.root.isEmpty then [] else [p.root]

/-- Two full stops, which lead to the directory above. -/
def above : Text := ['.', '.']

/-- The names that lead from `here` along one more part of a path. -/
def enter (here : List Text) (part : Text) : List Text :=
  if part != above then here ++ [part]
  else
    match here.getLast? with
    | none => [above]
    | some name =>
      if name = above then here ++ [above]
      else if name.head? = some '/' then here
      else here.dropLast

/-- The character of number zero stands in a name, which no system of files allows. -/
def holdsNull (p : Place) : Bool := p.parts.any (·.contains '\x00')

/-- The path as it is shown, a full stop standing for no names at all. -/
def shown (p : Place) : Text :=
  if p.root.isEmpty && p.parts.isEmpty then ['.'] else p.root ++ slashed p.parts

end Place

/-- Why a file cannot be opened. -/
inductive FileFault where
  | missing (place : Place)
  | notDirectory (place : Place)
  | isDirectory (place : Place)
  /-- The system of files refuses to open it, with these words. -/
  | refused (words : String)
  /-- The path holds the character of number zero. -/
  | nullCharacter
deriving DecidableEq, Repr

/-- The words for a file that cannot be opened. -/
def FileFault.message : FileFault → String
  | .missing p => "[Errno 2] No such file or directory: " ++ String.ofList (Text.quoted p.shown)
  | .notDirectory p => "[Errno 20] Not a directory: " ++ String.ofList (Text.quoted p.shown)
  | .isDirectory p => "[Errno 21] Is a directory: " ++ String.ofList (Text.quoted p.shown)
  | .refused words => words
  | .nullCharacter => "embedded null byte"

/-- What a file is opened for. -/
inductive Access where
  | reading
  | writing
deriving DecidableEq, Repr

/-- Files with their bytes, and directories that may be empty, each under the names that lead to
it. -/
structure Folder where
  files : List (List Text × List UInt8)
  directories : List (List Text)
  /-- The words with which the system of files refuses to open what a path leads to, for whatever
  reason it has besides those of `FileFault`. -/
  refuses : Access → Place → Option String := fun _ _ => none

/-- What stands at the end of a path. -/
inductive Node where
  | file (bytes : List UInt8)
  | directory
  | nothing
deriving DecidableEq, Repr

namespace Folder

/-- The names lead to a directory that is always there: where a path starts, or above it. -/
def isOrigin (names : List Text) : Bool :=
  names.all (· == Place.above) || names == [['/']] || names == [['/', '/']]

/-- What stands under some names, each directory on the way to a file being there too. -/
def node (f : Folder) (names : List Text) : Node :=
  match f.files.find? (fun e => e.1 == names) with
  | some e => .file e.2
  | none =>
    if isOrigin names || f.directories.any names.isPrefixOf || f.files.any (names.isPrefixOf ·.1)
    then .directory
    else .nothing

/-- Follows the parts of a path from a directory on. -/
def walk (f : Folder) (place : Place) : List Text → List Text → Except FileFault (List Text)
  | here, [] => .ok here
  | here, part :: rest =>
    match f.node here with
    | .file _ => .error (.notDirectory place)
    | .nothing => .error (.missing place)
    | .directory => walk f place (Place.enter here part) rest

/-- The names under which the end of a path stands in the folder. -/
def resolve (f : Folder) (access : Access) (place : Place) : Except FileFault (List Text) :=
  if place.holdsNull then .error .nullCharacter
  else
    match f.refuses access place with
    | some words => .error (.refused words)
    | none => f.walk place place.origin place.parts

/-- The bytes of a file. -/
def read (f : Folder) (place : Place) : Except FileFault (List UInt8) :=
  match f.resolve .reading place with
  | .error fault => .error fault
  | .ok names =>
    match f.node names with
    | .file bytes => .ok bytes
    | .directory => .error (.isDirectory place)
    | .nothing => .error (.missing place)

/-- The names under which a file can be written. -/
def target (f : Folder) (place : Place) : Except FileFault (List Text) :=
  match f.resolve .writing place with
  | .error fault => .error fault
  | .ok names =>
    match f.node names with
    | .directory => .error (.isDirectory place)
    | _ => .ok names

end Folder

end Passcode
