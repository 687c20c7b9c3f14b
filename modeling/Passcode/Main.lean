import Passcode.Command.Run

/-!
# The program

The outer layer of the command line: it looks up the files that the arguments name, runs the command
on them, and writes what the outcome says.
-/

namespace Passcode.Program

/-- What stands at a path of the file system. -/
def probe (path : String) : IO Node := do
  try
    return .file (← IO.FS.readBinFile path).toList
  catch _ =>
    try
      let _ ← IO.FS.realPath path
      return .directory
    catch _ => return .nothing

/-- Adds what stands along a path to a folder. -/
def lookAlong (f : Folder) (path : Text) : IO Folder := do
  let place := Place.of path
  let mut folder := f
  let mut here := place.origin
  for k in List.range place.parts.length do
    let part := { place with parts := place.parts.take (k + 1) }
    here := Place.enter here (place.parts.getD k [])
    match ← probe (String.ofList part.shown) with
    | .file bytes => folder := { folder with files := (here, bytes) :: folder.files }
    | .directory => folder := { folder with directories := here :: folder.directories }
    | .nothing => pure ()
  return folder

/-- The files that the arguments name. -/
def lookUp (arguments : List Text) : IO Folder := do
  let empty : Folder := { files := [], directories := [] }
  match Request.ofArguments arguments with
  | .ok request => request.paths.foldlM lookAlong empty
  | .error _ => return empty

/-- The path to which some names lead. -/
def pathOf (names : List Text) : String :=
  match names with
  | ('/' :: root) :: parts => String.ofList ('/' :: root ++ Place.slashed parts)
  | parts => String.ofList (Place.slashed parts)

/-- Writes what the outcome of a run says. -/
def report (o : Outcome) : IO UInt32 := do
  for (names, text) in o.changes do
    IO.FS.writeBinFile (pathOf names) (ByteArray.mk (Text.utf8Bytes text).toArray)
  IO.print (String.ofList o.stdout)
  match o.stderr with
  | some text => IO.eprint (String.ofList text)
  | none => IO.eprintln "usage: detect | batch | keywords"
  match o.stop with
  | some (.escaped fault) => IO.eprintln fault.message
  | some (.raised words) => IO.eprintln words
  | _ => pure ()
  return o.exitCode.toUInt32

end Passcode.Program

/-- Runs the command line. -/
def main (arguments : List String) : IO UInt32 := do
  let texts := arguments.map String.toList
  let folder ← Passcode.Program.lookUp texts
  let envLocale ← IO.getEnv Passcode.Settings.localeVariable
  let workplace : Passcode.Workplace :=
    { folder, envLocale := envLocale.map String.toList, store := Passcode.Store.packaged }
  Passcode.Program.report (Passcode.Command.run workplace texts)
