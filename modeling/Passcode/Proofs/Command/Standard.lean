import Passcode.Command.Standard
import Passcode.Proofs.Document.Keys
import Passcode.Proofs.Settings.Bounds
import Passcode.Proofs.Text.Encoding
import Passcode.Proofs.Vocabulary.Taken

/-!
# Standard — the tools of the program are as the commands need them

Text without an escape character has no control sequence, so it goes out as it is
(`standard_leavesPlain`).  The default encoding is UTF-8 less one byte order mark
(`standard_dropsMark`).  A settings file that is no document has words for it
(`standard_givesWords`), and in one that is, each mapping has each key once (`standard_keysOnce`).
Settings and bundles are read by the conversion and the rules that keep what they should
(`Conversion.generous_keeps`, `Bundle.usual_reads`).
-/

namespace Passcode

/-! ### Control sequences -/

theorem Text.controlSequenceLength_of_ne {c : Char} (h : c ≠ '\x1B') (cs : Text) :
    controlSequenceLength (c :: cs) = 0 := by
  unfold controlSequenceLength
  split
  · rename_i heq
    exact absurd (List.cons.inj heq).1 h
  · rfl

/-- A text without an escape character is left as it is. -/
theorem Text.withoutControlSequences_of_notMem {t : Text} (h : '\x1B' ∉ t) :
    withoutControlSequences t = t := by
  rw [withoutControlSequences]
  induction t with
  | nil => rfl
  | cons c cs ih =>
    obtain ⟨hc, hcs⟩ := not_or.mp (fun hmem => h (List.mem_cons.mpr hmem))
    rw [dropSequencesFrom, controlSequenceLength_of_ne (fun heq => hc heq.symm), ih hcs]

theorem Flaw.message_ne (flaw : Flaw) : flaw.message ≠ "" := by
  rw [message]
  simp

/-! ### The laws -/

namespace Tools

/-- The standard tools send ordinary text out as it is. -/
theorem standard_leavesPlain : standard.LeavesPlain := fun _ h =>
  Text.withoutControlSequences_of_notMem h

/-- The standard default encoding drops one byte order mark. -/
theorem standard_dropsMark : standard.DropsMark := by
  have hname : Encoding.ofName? Request.defaultEncoding = some .utf8Marked := by decide +kernel
  have hdecode {bytes : List UInt8} {text : Text} (h : Encoding.utf8MarkedFrom bytes = .ok text) :
      Standard.decode Request.defaultEncoding bytes = .ok text := by
    rw [Standard.decode, hname]
    dsimp only
    rw [Encoding.decode, h]
  refine ⟨fun text => hdecode (Encoding.utf8MarkedFrom_mark text), fun text hhead => ?_⟩
  rcases Encoding.utf8MarkedFrom_utf8Bytes text with h | ⟨cs, rfl, -⟩
  · exact hdecode h
  · exact absurd rfl hhead

/-- The standard reader says in words what is wrong with a document. -/
theorem standard_givesWords : standard.GivesWords := by
  intro bytes words h
  have h : Standard.document bytes = .error words := h
  have hnone : Standard.noDocument ≠ "" := by decide
  unfold Standard.document at h
  split at h
  · cases h
    exact Flaw.message_ne _
  · cases h
    exact hnone
  · dsimp only at h
    split at h
    · cases h
    · split at h
      · cases h
      · cases h
        exact hnone

/-- In a document that is read each mapping has each key once. -/
def KeysOnce (t : Tools) : Prop :=
  ∀ bytes document, t.document bytes = .ok document → document.KeyedOnce

/-- The standard reader gives documents with no key twice. -/
theorem standard_keysOnce : standard.KeysOnce := by
  intro bytes document h
  have h : Standard.document bytes = .ok document := h
  unfold Standard.document at h
  split at h
  · cases h
  · cases h
  · dsimp only at h
    split at h
    · cases h
      exact .null
    · split at h
      · rename_i hread
        cases h
        exact Document.keyedOnce_of_ofText? hread
      · cases h

end Tools

end Passcode
