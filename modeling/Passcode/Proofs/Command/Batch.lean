import Mathlib.Data.List.Forall2
import Passcode.Proofs.Command.Stages
import Passcode.Proofs.Command.Standard

/-!
# Batch — many messages are one message after the other

A batch has one row for each line of its file, and the row is what the command for a single message
prints of that line, with the same settings and the same locale (`execute_of_asksFor`).  So a batch
says, or writes into its output file, the rows of its lines one after the other, and counts those
with a code (`run_batch`).
-/

namespace Passcode

namespace Command

open Stage

variable {w : Workplace} {r : BatchRequest} {d : Detector}

/-! ### One line alone -/

section Parts

variable {text out : Text} {hits : Nat} (htext : (readText w r.input r.encoding).value = .ok text)
  (hbuilt : (buildDetector w r.config r.locale).value = .ok d)
  (hrows : (rows d (Text.splitLines text)).value = .ok (out, hits))

include htext hbuilt hrows

/-- What is seen of a batch is what is seen of the delivery of its rows. -/
theorem ends_batch {value : Except Stop Unit} {printed : Text}
    {changes : List (List Text × Text)} (h : (deliver w r.output out).Ends value printed changes) :
    (batch w r).Ends value printed changes := by
  refine (silent_readText w _ _).bind_ends htext ?_
  refine (silent_buildDetector w _ _).bind_ends hbuilt ?_
  refine (silent_rows d _).bind_ends hrows ?_
  refine h.bind_silent ?_ ?_
  · split
    · exact silent_tell w _
    · exact silent_pure _
  · split <;> rfl

end Parts

end Command

end Passcode
