import Passcode.Proofs.Command.Stages
import Passcode.Proofs.Command.Standard
import Passcode.Proofs.Message.Breaks
import Passcode.Proofs.Stability

/-!
# Input — a message in a file, and the same message as an argument

Reading a message from a file may take a byte order mark away and writes every line end as a line
feed (`exists_readText`).  Neither shows in the normal form of the message, so what is printed of
the message that was read is what is printed of the message itself (`explain_print_congr`), and the
two requests have one outcome (`run_fromFile`).
-/

namespace Passcode

namespace Command

open Stage

variable {w : Workplace} {path message : Text}

/-- The bytes are those of the message in UTF-8, with or without a byte order mark. -/
def Writes (bytes : List UInt8) (message : Text) : Prop :=
  bytes = Text.utf8Bytes message ∨ bytes = Encoding.mark ++ Text.utf8Bytes message

/-- The text that is read from the bytes of a message has the normal form of the message. -/
theorem exists_readText (hmark : w.tools.DropsMark) {bytes : List UInt8}
    (hread : w.folder.read (.of path) = .ok bytes) (hbytes : Writes bytes message) :
    ∃ text, readText w path Request.defaultEncoding = pure text ∧
      Text.canonical text = Text.canonical message := by
  have hname : '\x00' ∉ Request.defaultEncoding := by decide
  have hdecoded : ∃ decoded, w.tools.decode Request.defaultEncoding bytes = .ok decoded ∧
      Text.canonical decoded = Text.canonical message := by
    rcases hbytes with rfl | rfl
    · by_cases hhead : message.head? = some '\uFEFF'
      · obtain ⟨cs, rfl⟩ := List.head?_eq_some_iff.mp hhead
        rw [Encoding.utf8Bytes_mark_cons]
        exact ⟨cs, hmark.marked cs, (Text.canonical_mark cs).symm⟩
      · exact ⟨message, hmark.unmarked message hhead, rfl⟩
    · exact ⟨message, hmark.marked message, rfl⟩
  obtain ⟨decoded, hdecode, hcanonical⟩ := hdecoded
  exact ⟨_, readText_of_decode hname hread hdecode,
    (Text.canonical_unifyBreaks decoded).trans hcanonical⟩

/-- Of messages with one normal form the same is printed, and the same notes are made. -/
theorem explain_print_congr (w : Workplace) (d : Detector) (whole : Bool) {text message : Text}
    (h : Text.canonical text = Text.canonical message) :
    (explain d text >>= fun e => print w (rowOf whole e)) =
      explain d message >>= fun e => print w (rowOf whole e) := by
  have htext : (d.messageOf text).text = (d.messageOf message).text :=
    congrArg (Text.cut (some (d.settings.maxMessageLength : Int))) h
  rw [explain, explain, Detector.explain_withChanged htext]
  cases d.explain message with
  | error fault => rfl
  | ok l => rfl

/-- The request for the message in a file, in the default encoding, everything else as it is. -/
def fromFile (r : DetectRequest) (path : Text) : DetectRequest :=
  { r with message := none, input := some path, encoding := Request.defaultEncoding }

/-- **A message in a file**: where a file holds the bytes of a message in UTF-8, with or without a
byte order mark, the request for the message in the file has the same outcome as the request for the
message, with the same exit code and the same words on both outputs, whatever the settings, the
bundles and the locale, and with or without the whole explanation. -/
theorem run_fromFile (w : Workplace) (hmark : w.tools.DropsMark) {r : DetectRequest}
    {path message : Text} {bytes : List UInt8} (hgiven : r.message = some message)
    (hinput : r.input = none) (hread : w.folder.read (.of path) = .ok bytes)
    (hbytes : Writes bytes message) :
    execute w (.detect (fromFile r path)) = execute w (.detect r) := by
  obtain ⟨text, htext, hcanonical⟩ := exists_readText hmark hread hbytes
  have hfile : messageOf w (fromFile r path) = pure text := htext
  have hargument : messageOf w r = pure message := by rw [messageOf, hgiven, hinput]
  have hdetect : detect w (fromFile r path) = detect w r := by
    rw [detect, detect, hfile, hargument, Stage.pure_bind, Stage.pure_bind]
    exact bind_congr fun d => explain_print_congr w d r.explain hcanonical
  rw [execute, execute, answer, answer, hdetect]
  rfl

/-- A message that starts with a mark of its own and breaks its lines in three ways. -/
def brokenMessage : Text := "\uFEFFYour OTP\r\nis\r\r482911\n".toList

/-- A folder with the message in one file. -/
def desk : Workplace :=
  { folder := { files := [(["sms.txt".toList], Text.utf8Bytes brokenMessage)], directories := [] }
    envLocale := none
    store := .packaged }

/-- The request for the whole explanation of this message. -/
def brokenRequest : DetectRequest :=
  { message := some brokenMessage, input := none, config := none, locale := none, explain := true,
    encoding := Request.defaultEncoding, verbose := false }

/-- The command lines for the message and for its file have one outcome. -/
theorem run_fromFile_broken :
    desk.tools.DropsMark ∧
      desk.tools.parse ["detect".toList, "--explain".toList, "--".toList, brokenMessage] =
          .ok (.detect brokenRequest) ∧
        desk.tools.parse ["detect".toList, "--in=sms.txt".toList, "--explain".toList] =
            .ok (.detect (fromFile brokenRequest "sms.txt".toList)) ∧
          brokenRequest.message = some brokenMessage ∧ brokenRequest.input = none ∧
            desk.folder.read (.of "sms.txt".toList) = .ok (Text.utf8Bytes brokenMessage) ∧
              Writes (Text.utf8Bytes brokenMessage) brokenMessage ∧
                run desk ["detect".toList, "--in=sms.txt".toList, "--explain".toList] =
                  run desk ["detect".toList, "--explain".toList, "--".toList, brokenMessage] := by
  have hmark : desk.tools.DropsMark := Tools.standard_dropsMark
  have hmessage : desk.tools.parse
      ["detect".toList, "--explain".toList, "--".toList, brokenMessage] =
        .ok (.detect brokenRequest) := by decide +kernel
  have hfile : desk.tools.parse ["detect".toList, "--in=sms.txt".toList, "--explain".toList] =
      .ok (.detect (fromFile brokenRequest "sms.txt".toList)) := by decide +kernel
  have hread : desk.folder.read (.of "sms.txt".toList) =
      .ok (Text.utf8Bytes brokenMessage) := by decide +kernel
  refine ⟨hmark, hmessage, hfile, rfl, rfl, hread, .inl rfl, ?_⟩
  rw [run_of_parse hfile, run_of_parse hmessage]
  exact run_fromFile desk hmark rfl rfl hread (.inl rfl)

end Command

end Passcode
