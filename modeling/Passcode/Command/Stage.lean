import Passcode.Detector

/-!
# Stage — what a run does on its way, and why it may stop

A command is made of stages.  What can be seen of a stage are its effects, in the order in which
they come about; it ends with a value for the next stage, or it stops the run.  Behind a stage that
stops there is no other, and what it did before stays done.

An `Outcome` holds all effects of a run and why it stopped.  The two outputs and the files are read
off the effects, and so they are whatever the run came to before its end.
-/

namespace Passcode

/-- A fault that no command answers. -/
inductive Escape where
  | unknownEncoding (name : Text)
  | noByteOrderMark
  | nullCharacter
  | detection (fault : DetectionFault)
deriving DecidableEq, Repr

/-- The words for a fault that no command answers. -/
def Escape.message : Escape → String
  | .unknownEncoding name => "unknown encoding: " ++ String.ofList name
  | .noByteOrderMark => "UTF-16 stream does not start with BOM"
  | .nullCharacter => "embedded null byte"
  | .detection fault => fault.message

/-- Why a run stops before its end. -/
inductive Stop where
  /-- The arguments do not fit any command. -/
  | usage
  /-- A command ends the run with an exit code. -/
  | exit (code : Nat)
  | escaped (fault : Escape)
  /-- A fault of something that a command uses, with its words, which no command answers either. -/
  | raised (words : String)
deriving DecidableEq, Repr

/-- The exit code of a run that stops. -/
def Stop.exitCode : Stop → Nat
  | .usage => 2
  | .exit code => code
  | .escaped _ => 1
  | .raised _ => 1

/-- What can be seen of a run. -/
inductive Effect where
  /-- A note is made in the journal. -/
  | noted (entry : Entry)
  /-- Text goes to the error output. -/
  | told (text : Text)
  /-- Text goes to the standard output. -/
  | printed (text : Text)
  /-- The file to which some names lead is there from now on and holds the text. -/
  | wrote (names : List Text) (text : Text)
deriving DecidableEq, Repr

namespace Effect

/-- What an effect adds to the standard output. -/
def onStdout : Effect → Text
  | .printed text => text
  | _ => []

/-- What an effect adds to the error output, on which the outlet shows its entries. -/
def onStderr (outlet : Outlet) : Effect → Text
  | .noted entry => if outlet.shows entry then entry.render.toList ++ ['\n'] else []
  | .told text => text
  | _ => []

/-- The file that an effect changes, and what it holds from then on. -/
def change? : Effect → Option (List Text × Text)
  | .wrote names text => some (names, text)
  | _ => none

end Effect

/-- A part of a run: what is done, and the value for the next part, if the run does not stop. -/
structure Stage (α : Type) where
  effects : List Effect
  value : Except Stop α

namespace Stage

variable {α β : Type}

/-- A stage that does nothing but stop. -/
def stop (s : Stop) : Stage α := ⟨[], .error s⟩

/-- A stage of one effect. -/
def perform (e : Effect) : Stage Unit := ⟨[e], .ok ()⟩

/-- A stage that makes the notes on the way to a value. -/
def ofLogged (l : Logged α) : Stage α := ⟨l.entries.map .noted, .ok l.value⟩

/-- One stage after the other. -/
def bind (s : Stage α) (f : α → Stage β) : Stage β :=
  match s.value with
  | .error stop => ⟨s.effects, .error stop⟩
  | .ok x => ⟨s.effects ++ (f x).effects, (f x).value⟩

instance : Monad Stage where
  pure x := ⟨[], .ok x⟩
  bind := bind

/-- What a stage prints. -/
def stdout (s : Stage α) : Text := s.effects.flatMap Effect.onStdout

/-- The changes of files that a stage makes. -/
def changes (s : Stage α) : List (List Text × Text) := s.effects.filterMap Effect.change?

end Stage

/-- What can be seen of a run, and why it stopped if it did. -/
structure Outcome where
  outlet : Outlet
  effects : List Effect
  stop : Option Stop
deriving DecidableEq, Repr

namespace Outcome

/-- The exit code, zero where nothing stopped the run. -/
def exitCode (o : Outcome) : Nat := (o.stop.map Stop.exitCode).getD 0

/-- The standard output. -/
def stdout (o : Outcome) : Text := o.effects.flatMap Effect.onStdout

/-- The error output, none where it explains the use of the commands. -/
def stderr (o : Outcome) : Option Text :=
  match o.stop with
  | some .usage => none
  | _ => some (o.effects.flatMap (Effect.onStderr o.outlet))

/-- The fault that escaped, if there is one. -/
def escaped (o : Outcome) : Option Escape :=
  match o.stop with
  | some (.escaped fault) => some fault
  | _ => none

/-- The changes of files, the first of them first. -/
def changes (o : Outcome) : List (List Text × Text) := o.effects.filterMap Effect.change?

/-- The file that was changed last, under the names that lead to it. -/
def file (o : Outcome) : Option (List Text × Text) := o.changes.getLast?

end Outcome

end Passcode
