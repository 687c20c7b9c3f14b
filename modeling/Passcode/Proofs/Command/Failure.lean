import Passcode.Proofs.Command.Batch

/-!
# Failure — a run that fails leaves nothing behind

A request is answered stage after stage: the text that it is about (`source`), then the settings
and the bundles, and last the delivery of what it has to say.  The stages before the delivery are
silent, so a request that is stopped by one of them has printed nothing and changed no file, and
one that is not stopped is seen to do just what its delivery does (`answer_cases`).  A delivery
leaves something behind and fails only if the output file was opened and the writing broke off
(`Delivery`).

Each fault has its exit code, whatever faults come behind it (`exitCodes_of_answer`).  Some faults
are not told but escape, with exit code 1: a name that the system of files refuses or that no
encoding has, a text of 16-bit units without a byte order mark, though such a text cannot be
decoded any more than bytes out of place can, and bundles whose bytes are no text.
-/

namespace Passcode

namespace Command

open Stage

variable {w : Workplace} {request : Request}

/-! ### The parts of a request -/

/-- The request gives two messages, or none. -/
def Unclear : Request → Prop
  | .detect r => r.message.isSome = r.input.isSome
  | .batch _ => False
  | .keywords _ => False

/-- The path and the encoding of the input file. -/
def inputOf : Request → Option (Text × Text)
  | .detect r => r.input.map (fun path => (path, r.encoding))
  | .batch r => some (r.input, r.encoding)
  | .keywords _ => none

/-- The path of the settings file. -/
def configOf : Request → Option Text
  | .detect r => r.config
  | .batch r => r.config
  | .keywords _ => none

/-- The locale of the command line. -/
def localeOf : Request → Option Text
  | .detect r => r.locale
  | .batch r => r.locale
  | .keywords locale => locale

/-- The path of the output file. -/
def outputOf : Request → Option Text
  | .detect _ => none
  | .batch r => r.output
  | .keywords _ => none

/-- The text that a request is about, none where it needs no text. -/
def source (w : Workplace) : Request → Stage Text
  | .detect r => messageOf w r
  | .batch r => readText w r.input r.encoding
  | .keywords _ => pure []

/-- What a request has to say of its text: one line, or one line for each line of the text. -/
def Speaks : Request → Text → Text → Prop
  | .detect _, _, said => said.IsLine
  | .keywords _, _, said => said.IsLine
  | .batch _, text, said => ∃ rows : List Text, rows.length = (Text.splitLines text).length ∧
      (∀ row ∈ rows, row.IsLine) ∧ said = rows.flatten

/-! ### The text that a request is about -/

/-- Getting the text of a request prints nothing and changes no file. -/
theorem silent_source (w : Workplace) (request : Request) : (source w request).Silent := by
  cases request with
  | detect r =>
    rw [source, messageOf]
    split
    · exact silent_leave w 2 _
    · exact silent_leave w 2 _
    · exact silent_pure _
    · exact silent_readText w _ _
  | batch r => exact silent_readText w _ _
  | keywords locale => exact silent_pure _

/-- A request that is not clear about its text is stopped with exit code 2. -/
theorem value_source_of_unclear (w : Workplace) (h : Unclear request) :
    (source w request).value = .error (.exit 2) := by
  cases request with
  | detect r =>
    have hboth : r.message.isSome = r.input.isSome := h
    rw [source, messageOf]
    cases hmessage : r.message <;> cases hinput : r.input <;> rw [hmessage, hinput] at hboth
    · exact (ends_leave w 2 _).value
    · cases hboth
    · cases hboth
    · exact (ends_leave w 2 _).value
  | batch r => exact h.elim
  | keywords locale => exact h.elim

/-- A request that names an input file has the text of that file. -/
theorem source_of_input {path encoding : Text} (h : ¬ Unclear request)
    (hinput : inputOf request = some (path, encoding)) :
    source w request = readText w path encoding := by
  cases request with
  | detect r =>
    obtain ⟨_, hpath, heq⟩ := Option.map_eq_some_iff.mp hinput
    cases heq
    rw [source, messageOf, hpath]
    cases hmessage : r.message with
    | none => rfl
    | some message => exact absurd (by rw [Unclear, hmessage, hpath]; rfl) h
  | batch r => cases hinput; rfl
  | keywords locale => cases hinput

/-- A clear request without an input file has its text. -/
theorem value_source_of_none (w : Workplace) (h : ¬ Unclear request)
    (hinput : inputOf request = none) : ∃ text, (source w request).value = .ok text := by
  cases request with
  | detect r =>
    have hnone : r.input = none := Option.map_eq_none_iff.mp hinput
    rw [source, messageOf, hnone]
    cases hmessage : r.message with
    | none => exact absurd (by rw [Unclear, hmessage, hnone]) h
    | some message => exact ⟨message, rfl⟩
  | batch r => cases hinput
  | keywords locale => exact ⟨[], rfl⟩

/-- A request that has no text never ends with 0. -/
theorem exitCode_of_source {stop : Stop} (h : (source w request).value = .error stop) :
    stop.exitCode ≠ 0 := by
  by_cases hclear : Unclear request
  · cases (value_source_of_unclear w hclear).symm.trans h
    decide
  · cases hinput : inputOf request with
    | none =>
      obtain ⟨text, hsource⟩ := value_source_of_none w hclear hinput
      cases hsource.symm.trans h
    | some input =>
      rw [source_of_input hclear hinput] at h
      exact exitCode_of_readText h

/-! ### The keyword lists that are asked for -/

section Keywords

variable {locale : Option Text} (hkeeps : w.tools.conversion.Keeps)

/-- The locale whose keyword lists are asked for. -/
def askedLocale (w : Workplace) (locale : Option Text) : Text :=
  (given locale).getD (Settings.default.withEnvironment w.envLocale).locale

theorem silent_localeOrDefault (w : Workplace) (locale : Option Text) :
    (localeOrDefault w locale).Silent := by
  rw [localeOrDefault]
  split
  · exact silent_pure _
  · split
    · exact silent_stop _
    · exact silent_pure _

include hkeeps

/-- The locale that is asked for is found, whether one is given or not. -/
theorem value_localeOrDefault (locale : Option Text) :
    (localeOrDefault w locale).value = .ok (askedLocale w locale) := by
  rw [localeOrDefault, askedLocale, Settings.loadBy_none hkeeps]
  cases given locale <;> rfl

/-- Without a settings file there are settings, and their locale is the one that is asked for. -/
theorem value_loadSettings_none (locale : Option Text) :
    (loadSettings w none locale).value =
      .ok { Settings.default.withEnvironment w.envLocale with locale := askedLocale w locale } :=
  value_loadSettings_of_ok rfl (Settings.loadBy_none hkeeps _)

/-- Without a settings file a detector fails to be built exactly as keyword lists fail to be
found. -/
theorem value_findVocabulary_of_unbuilt {stop : Stop}
    (h : (buildDetector w none locale).value = .error stop) :
    (findVocabulary w (askedLocale w locale)).value = .error stop := by
  rw [buildDetector, value_bind_of_ok (value_loadSettings_none hkeeps locale)] at h
  rcases value_bind_eq_error_iff.mp h with hfind | ⟨v, -, hd⟩
  · exact hfind
  · cases hd

/-- If a detector is built without a settings file, the keyword lists are found. -/
theorem value_findVocabulary_of_built {d : Detector}
    (h : (buildDetector w none locale).value = .ok d) :
    ∃ v, (findVocabulary w (askedLocale w locale)).value = .ok v := by
  obtain ⟨s, v, hload, hfind, -⟩ := exists_of_buildDetector h
  cases (value_loadSettings_none hkeeps locale).symm.trans hload
  exact ⟨v, hfind⟩

end Keywords

/-! ### What is seen of an answer -/

/-- A request that has no text is stopped before anything is seen. -/
theorem ends_answer_of_source {stop : Stop} (h : (source w request).value = .error stop) :
    (answer w request).Ends (.error stop) [] [] := by
  cases request with
  | detect r => exact ((silent_source w (.detect r)).ends h).bind_error
  | batch r => exact ((silent_source w (.batch r)).ends h).bind_error
  | keywords locale => cases h

/-- A request without a detector is stopped before anything is seen. -/
theorem ends_answer_of_unbuilt (hkeeps : w.tools.conversion.Keeps) {text : Text} {stop : Stop}
    (hsource : (source w request).value = .ok text)
    (h : (buildDetector w (configOf request) (localeOf request)).value = .error stop) :
    (answer w request).Ends (.error stop) [] [] := by
  cases request with
  | detect r =>
    exact (silent_source w (.detect r)).bind_ends hsource
      ((silent_buildDetector w _ _).ends h).bind_error
  | batch r =>
    exact (silent_source w (.batch r)).bind_ends hsource
      ((silent_buildDetector w _ _).ends h).bind_error
  | keywords locale =>
    exact (silent_localeOrDefault w locale).bind_ends (value_localeOrDefault hkeeps locale)
      ((silent_findVocabulary w _).ends (value_findVocabulary_of_unbuilt hkeeps h)).bind_error

/-- **An answer** with a text and a detector is seen to do what the delivery of its words does. -/
theorem ends_answer_of_built (hkeeps : w.tools.conversion.Keeps) {text : Text} {d : Detector}
    (hsource : (source w request).value = .ok text)
    (hbuilt : (buildDetector w (configOf request) (localeOf request)).value = .ok d) :
    ∃ said, Speaks request text said ∧ '\x1B' ∉ said ∧
      ∀ value out changes, (deliver w (outputOf request) said).Ends value out changes →
        (answer w request).Ends value out changes := by
  cases request with
  | detect r =>
    obtain ⟨l, -, hexplain⟩ := value_explain (withinBounds_of_buildDetector hbuilt) text
    refine ⟨rowOf r.explain l.value, isLine_line _, escape_notMem_line _, fun _ _ _ h => ?_⟩
    exact (silent_source w (.detect r)).bind_ends hsource <|
      (silent_buildDetector w _ _).bind_ends hbuilt <|
        (silent_explain d text).bind_ends hexplain h
  | batch r =>
    obtain ⟨verdicts, hsaid, hrows⟩ :=
      value_rows (withinBounds_of_buildDetector hbuilt) (Text.splitLines text)
    refine ⟨_, ⟨verdicts.map verdictRow, ?_, fun row hrow => ?_, rfl⟩, escape_notMem_rows verdicts,
      fun _ _ _ h => ends_batch hsource hbuilt hrows h⟩
    · rw [List.length_map, hsaid.length_eq]
    · obtain ⟨v, -, rfl⟩ := List.mem_map.mp hrow
      exact isLine_line _
  | keywords locale =>
    obtain ⟨v, hfind⟩ := value_findVocabulary_of_built hkeeps hbuilt
    refine ⟨line (keywordsDocument v), isLine_line _, escape_notMem_line _, fun _ _ _ h => ?_⟩
    exact (silent_localeOrDefault w locale).bind_ends (value_localeOrDefault hkeeps locale) <|
      (silent_findVocabulary w _).bind_ends hfind h

/-! ### What a run leaves behind -/

/-- A text stands on the standard output or in the output file, and nowhere else. -/
def StandsOnce (w : Workplace) (output : Option Text) (text : Text) (o : Outcome) : Prop :=
  match output with
  | none => o.stdout = text ∧ o.changes = []
  | some path => o.stdout = [] ∧
      ∃ names, w.folder.target (.of path) = .ok names ∧ o.changes = [(names, []), (names, text)]

/-- What is delivered with exit code 0 stands in one place. -/
theorem standsOnce_of_delivery {output : Option Text} {text : Text} {o : Outcome}
    (h : Delivery w text output o.exitCode o.stdout o.changes) (hzero : o.exitCode = 0) :
    StandsOnce w output text o := by
  generalize hcode : o.exitCode = code at h
  generalize hstdout : o.stdout = out at h
  generalize hchanges : o.changes = changes at h
  cases h with
  | printed => exact ⟨hstdout, hchanges⟩
  | written htarget => exact ⟨hstdout, _, htarget, hchanges⟩
  | brokenOff => cases hcode.symm.trans hzero
  | unopened =>
    rw [hzero] at hcode
    split at hcode <;> cases hcode

/-- A run has said all that it has to say, in one place. -/
def Delivers (w : Workplace) (request : Request) (o : Outcome) : Prop :=
  ∃ text said, (source w request).value = .ok text ∧ Speaks request text said ∧
    StandsOnce w (outputOf request) said o

/-- The output file of a run was opened, and the writing broke off. -/
def BreaksOff (w : Workplace) (request : Request) (o : Outcome) : Prop :=
  ∃ text said path names count words, (source w request).value = .ok text ∧
    Speaks request text said ∧ outputOf request = some path ∧
      w.folder.target (.of path) = .ok names ∧ w.breaksOff names said = some (count, words) ∧
        o.exitCode = 3 ∧ o.changes = [(names, []), (names, said.take count)]

/-- The exit codes of a request.  A fault in an earlier stage decides whatever is wrong in a later
one. -/
structure ExitCodes (w : Workplace) (request : Request) (code : Nat) : Prop where
  unclear : Unclear request → code = 2
  input : ¬ Unclear request → ∀ path encoding, inputOf request = some (path, encoding) →
    InputCodes w path encoding code
  settingsUnopened : ∀ text, (source w request).value = .ok text →
    SettingsUnopened w (configOf request) → code = 3
  settings : ∀ text stop, (source w request).value = .ok text →
    ¬ SettingsUnopened w (configOf request) →
      (loadSettings w (configOf request) (localeOf request)).value = .error stop → code = 4
  bundles : ∀ text s fault, (source w request).value = .ok text →
    (loadSettings w (configOf request) (localeOf request)).value = .ok s →
      (w.store.vocabularyBy w.tools.rules (some s.locale)).value = .error fault →
        code = if fault.escapes then 1 else 4
  output : ∀ text d path fault, (source w request).value = .ok text →
    (buildDetector w (configOf request) (localeOf request)).value = .ok d →
      outputOf request = some path → w.folder.target (.of path) = .error fault →
        code = if fault = .nullCharacter then 1 else 3
  well : ∀ text d, (source w request).value = .ok text →
    (buildDetector w (configOf request) (localeOf request)).value = .ok d →
      (∀ path, outputOf request = some path → ∃ names, w.folder.target (.of path) = .ok names ∧
        ∀ said, w.breaksOff names said = none) → code = 0

section Exits

variable {text : Text} {stop : Stop}

/-- **A request whose text is not found** is stopped there, and nothing was printed or changed. -/
theorem execute_of_source (h : (source w request).value = .error stop) :
    (execute w request).exitCode = stop.exitCode ∧ (execute w request).stdout = [] ∧
      (execute w request).changes = [] :=
  execute_of_ends (ends_answer_of_source h)

/-- **A request whose detector is not built** is stopped there, and nothing was printed or
changed. -/
theorem execute_of_unbuilt (hkeeps : w.tools.conversion.Keeps)
    (hsource : (source w request).value = .ok text)
    (h : (buildDetector w (configOf request) (localeOf request)).value = .error stop) :
    (execute w request).exitCode = stop.exitCode ∧ (execute w request).stdout = [] ∧
      (execute w request).changes = [] :=
  execute_of_ends (ends_answer_of_unbuilt hkeeps hsource h)

/-- **A request whose detector is built** says what it has to say in one delivery. -/
theorem delivery_of_built (hplain : w.tools.LeavesPlain) (hkeeps : w.tools.conversion.Keeps)
    {d : Detector} (hsource : (source w request).value = .ok text)
    (hbuilt : (buildDetector w (configOf request) (localeOf request)).value = .ok d) :
    ∃ said, Speaks request text said ∧
      Delivery w said (outputOf request) (execute w request).exitCode (execute w request).stdout
        (execute w request).changes := by
  obtain ⟨said, hspeaks, hescape, hends⟩ := ends_answer_of_built hkeeps hsource hbuilt
  obtain ⟨value, out, changes, hdelivers, hdelivery, -⟩ :=
    exists_delivery hplain hescape (outputOf request)
  obtain ⟨hexit, hstdout, hchanges⟩ := execute_of_ends (hends value out changes hdelivers)
  rw [hexit, hstdout, hchanges]
  exact ⟨said, hspeaks, hdelivery⟩

/-- Why no detector is built: the settings or their vocabulary. -/
theorem exitCode_of_buildDetector (hwords : w.tools.GivesWords) {config locale : Option Text}
    (h : (buildDetector w config locale).value = .error stop) : stop.exitCode ≠ 0 := by
  rcases value_bind_eq_error_iff.mp h with hload | ⟨s, hload, hrest⟩
  · rcases exitCode_of_loadSettings hwords hload with ⟨-, hcode⟩ | ⟨-, hcode⟩
    · rw [hcode]; decide
    · rw [hcode]; decide
  · rcases value_bind_eq_error_iff.mp hrest with hfind | ⟨v, -, hd⟩
    · obtain ⟨fault, -, hcode⟩ := exitCode_of_findVocabulary hfind
      rw [hcode]
      split <;> decide
    · cases hd

/-- **The exit code of a request** is that of the first stage that fails. -/
theorem exitCodes_of_execute (hplain : w.tools.LeavesPlain) (hwords : w.tools.GivesWords)
    (hkeeps : w.tools.conversion.Keeps) (request : Request) :
    ExitCodes w request (execute w request).exitCode where
  unclear h := (execute_of_source (value_source_of_unclear w h)).1
  input hclear path encoding hinput := inputCodes_of_readText fun stop hstop =>
    (execute_of_source ((source_of_input hclear hinput).symm ▸ hstop)).1
  settingsUnopened text hsource hunopened := by
    cases hload : (loadSettings w (configOf request) (localeOf request)).value with
    | ok s =>
      obtain ⟨_, _, hoverride, -, -⟩ := exists_of_loadSettings hload
      exact absurd hunopened (opened_of_readOverride hoverride)
    | error stop =>
      have hbuilt : (buildDetector w (configOf request) (localeOf request)).value = .error stop :=
        value_bind_of_error hload
      rcases exitCode_of_loadSettings hwords hload with ⟨-, hcode⟩ | ⟨hopened, -⟩
      · exact (execute_of_unbuilt hkeeps hsource hbuilt).1.trans hcode
      · exact absurd hunopened hopened
  settings text stop hsource hopened hload := by
    have hbuilt : (buildDetector w (configOf request) (localeOf request)).value = .error stop :=
      value_bind_of_error hload
    rcases exitCode_of_loadSettings hwords hload with ⟨hunopened, -⟩ | ⟨-, hcode⟩
    · exact absurd hunopened hopened
    · exact (execute_of_unbuilt hkeeps hsource hbuilt).1.trans hcode
  bundles text s fault hsource hload hfault := by
    obtain ⟨stop, hfind, hcode⟩ := value_findVocabulary_of_error hfault
    have hbuilt : (buildDetector w (configOf request) (localeOf request)).value = .error stop := by
      rw [buildDetector, value_bind_of_ok hload]
      exact value_bind_of_error hfind
    exact (execute_of_unbuilt hkeeps hsource hbuilt).1.trans hcode
  output text d path fault hsource hbuilt houtput htarget := by
    obtain ⟨said, -, hdelivery⟩ := delivery_of_built hplain hkeeps hsource hbuilt
    rw [houtput] at hdelivery
    exact hdelivery.of_fault htarget
  well text d hsource hbuilt hwritable := by
    obtain ⟨said, -, hdelivery⟩ := delivery_of_built hplain hkeeps hsource hbuilt
    cases houtput : outputOf request with
    | none =>
      rw [houtput] at hdelivery
      exact hdelivery.of_none.1
    | some path =>
      obtain ⟨names, htarget, hwhole⟩ := hwritable path houtput
      rw [houtput] at hdelivery
      exact (hdelivery.of_target htarget (hwhole said)).1

end Exits

/-- **A run that fails leaves nothing behind**: of any request, a run with an exit code other than
0 says nothing on the standard output and changes no file, unless its output file was opened and
the writing broke off, and a run with 0 has said one line, or one line for each line of its input,
all in one place.  The exit code is that of the first stage that fails. -/
theorem run_exits (w : Workplace) (hplain : w.tools.LeavesPlain) (hwords : w.tools.GivesWords)
    (hkeeps : w.tools.conversion.Keeps) (request : Request) :
    ((execute w request).exitCode ≠ 0 → (execute w request).stdout = [] ∧
      ((execute w request).changes = [] ∨ BreaksOff w request (execute w request))) ∧
    ((execute w request).exitCode = 0 → Delivers w request (execute w request)) ∧
    ExitCodes w request (execute w request).exitCode := by
  have hcodes := exitCodes_of_execute hplain hwords hkeeps request
  cases hsource : (source w request).value with
  | error stop =>
    obtain ⟨hexit, hstdout, hchanges⟩ := execute_of_source hsource
    have hne : (execute w request).exitCode ≠ 0 := hexit ▸ exitCode_of_source hsource
    exact ⟨fun _ => ⟨hstdout, .inl hchanges⟩, fun hzero => absurd hzero hne, hcodes⟩
  | ok text =>
    cases hbuilt : (buildDetector w (configOf request) (localeOf request)).value with
    | error stop =>
      obtain ⟨hexit, hstdout, hchanges⟩ := execute_of_unbuilt hkeeps hsource hbuilt
      have hne : (execute w request).exitCode ≠ 0 :=
        hexit ▸ exitCode_of_buildDetector hwords hbuilt
      exact ⟨fun _ => ⟨hstdout, .inl hchanges⟩, fun hzero => absurd hzero hne, hcodes⟩
    | ok d =>
      obtain ⟨said, hspeaks, hdelivery⟩ := delivery_of_built hplain hkeeps hsource hbuilt
      refine ⟨fun hne => ?_, fun hzero => ?_, hcodes⟩
      · obtain ⟨hstdout, hchanges⟩ := hdelivery.of_ne_zero hne
        refine ⟨hstdout, hchanges.imp_right fun h => ?_⟩
        obtain ⟨path, names, count, words, hrest⟩ := h
        exact ⟨text, said, path, names, count, words, hsource, hspeaks, hrest⟩
      · exact ⟨text, said, hsource, hspeaks, standsOnce_of_delivery hdelivery hzero⟩

/-- The 16-bit units of "OTP 123456", the low byte first and no byte order mark before them. -/
def unmarkedBytes : List UInt8 :=
  "OTP 123456".toList.flatMap (fun c => [c.toNat.toUInt8, 0])

/-- A folder with these bytes in one file. -/
def unmarkedPlace : Workplace :=
  { folder := { files := [(["m.txt".toList], unmarkedBytes)], directories := [] }
    envLocale := none
    store := .packaged }

/-- The arguments of a batch on this file. -/
def unmarkedArguments : List Text :=
  ["batch".toList, "--in".toList, "m.txt".toList, "--encoding".toList, "utf-16".toList]

/-- This batch. -/
def unmarkedRequest : BatchRequest :=
  { input := "m.txt".toList, output := none, config := none, locale := none,
    encoding := "utf-16".toList, verbose := false }

/-- A text of 16-bit units without a byte order mark is not decoded, and its batch ends with 1. -/
theorem run_exits_unmarked :
    unmarkedPlace.tools.LeavesPlain ∧ unmarkedPlace.tools.GivesWords ∧
      unmarkedPlace.tools.conversion.Keeps ∧
        unmarkedPlace.tools.parse unmarkedArguments = .ok (.batch unmarkedRequest) ∧
          (run unmarkedPlace unmarkedArguments).exitCode = 1 ∧
            (run unmarkedPlace unmarkedArguments).stdout = [] ∧
              (run unmarkedPlace unmarkedArguments).changes = [] := by
  have hplain : unmarkedPlace.tools.LeavesPlain := Tools.standard_leavesPlain
  have hwords : unmarkedPlace.tools.GivesWords := Tools.standard_givesWords
  have hkeeps : unmarkedPlace.tools.conversion.Keeps := Conversion.generous_keeps
  have hparse : unmarkedPlace.tools.parse unmarkedArguments = .ok (.batch unmarkedRequest) := by
    decide +kernel
  have hread : unmarkedPlace.folder.read (.of unmarkedRequest.input) = .ok unmarkedBytes := by
    decide +kernel
  have hdecode : unmarkedPlace.tools.decode unmarkedRequest.encoding unmarkedBytes =
      .error .noByteOrderMark := by decide +kernel
  obtain ⟨hnothing, -, hcodes⟩ :=
    run_exits unmarkedPlace hplain hwords hkeeps (.batch unmarkedRequest)
  have hinput : InputCodes unmarkedPlace unmarkedRequest.input unmarkedRequest.encoding
      (execute unmarkedPlace (.batch unmarkedRequest)).exitCode := hcodes.input id _ _ rfl
  have hexit : (execute unmarkedPlace (.batch unmarkedRequest)).exitCode = 1 :=
    hinput.escaped unmarkedBytes .noByteOrderMark (by decide +kernel) hread hdecode nofun
  obtain ⟨hstdout, hchanges⟩ := hnothing (hexit ▸ Nat.one_ne_zero)
  rw [run_of_parse hparse]
  refine ⟨hplain, hwords, hkeeps, hparse, hexit, hstdout, hchanges.resolve_right ?_⟩
  -- Without an output file there is nothing to break off.
  rintro ⟨_, _, path, _, _, _, -, -, houtput, -⟩
  cases houtput

end Command

end Passcode
