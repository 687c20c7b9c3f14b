import Passcode.Text.Basic

/-!
# Journal — what is noted down on the way

An entry has a level, the part of the library that writes it, and its words.  A value with the
entries written on the way to it is `Logged`; entries keep their order.

An `Outlet` shows entries from some level on.  It always has one silent handler, and configuring it
replaces the handler that writes to the error output, so that there is never more than one.
-/

namespace Passcode

/-- How much an entry matters. -/
inductive Level where
  | debug
  | warning
deriving DecidableEq, Repr

/-- The name of a level in the written form of an entry. -/
def Level.name : Level → String
  | .debug => "DEBUG"
  | .warning => "WARNING"

/-- How much a level matters, as a number. -/
def Level.rank : Level → Nat
  | .debug => 10
  | .warning => 30

/-- One note. -/
structure Entry where
  level : Level
  /-- The part of the library that writes the note. -/
  writer : String
  words : String
deriving DecidableEq, Repr

/-- The written form of an entry. -/
def Entry.render (e : Entry) : String := e.level.name ++ " " ++ e.writer ++ ": " ++ e.words

/-- A value with the entries written on the way to it, the first of them first. -/
structure Logged (α : Type) where
  entries : List Entry
  value : α

namespace Logged

/-- A value on the way to which nothing is written. -/
def quiet {α : Type} (value : α) : Logged α := ⟨[], value⟩

/-- Changes the value and keeps the entries. -/
def map {α β : Type} (f : α → β) (l : Logged α) : Logged β := ⟨l.entries, f l.value⟩

end Logged

/-! ### Outlets -/

/-- What takes the entries of an outlet. -/
inductive Handler where
  /-- Drops them. -/
  | silent
  /-- Writes them to the error output. -/
  | stream
deriving DecidableEq, Repr

/-- Where entries go. -/
structure Outlet where
  level : Level
  handlers : List Handler
deriving DecidableEq, Repr

namespace Outlet

/-- The name of the outlet of all writers. -/
def name : String := "otpscan"

/-- The name of a writer below the outlet. -/
def writerName (writer : String) : String :=
  if writer == name || (name ++ ".").toList.isPrefixOf writer.toList then writer
  else name ++ "." ++ writer

/-- The outlet before it is configured. -/
def initial : Outlet := { level := .warning, handlers := [.silent] }

/-- Shows all entries, or only warnings, on one stream. -/
def configure (verbose : Bool) (o : Outlet) : Outlet :=
  { level := if verbose then .debug else .warning
    handlers := o.handlers.filter (· != .stream) ++ [.stream] }

/-- The outlet shows the entry. -/
def shows (o : Outlet) (e : Entry) : Bool :=
  o.handlers.contains .stream && o.level.rank ≤ e.level.rank

end Outlet

end Passcode
