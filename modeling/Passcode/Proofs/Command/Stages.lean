import Passcode.Command.Run
import Passcode.Proofs.Command.Seen
import Passcode.Proofs.Document.Printer
import Passcode.Proofs.Explanation

/-!
# Stages — what each stage of a command can end with

For each stage the lemmas here say that it is silent, and when it stops and with which exit code.

* Reading the input stops with 3 where a file cannot be opened or its bytes encode nothing, and with
  1 where a fault escapes (`inputCodes_of_readText`).
* Settings stop with 3 where their file cannot be opened and with 4 otherwise
  (`exitCode_of_loadSettings`), and bundles stop with 4, or with 1 where a fault escapes
  (`exitCode_of_findVocabulary`).
* A detector that is built stays within its bounds (`withinBounds_of_buildDetector`), so messages
  never stop a run (`explain_eq`, `rows_eq`).
* Printing never stops, and writing a file has four ends (`deliver_cases`).
-/

namespace Passcode

/-- A text that is not empty has a line. -/
theorem Text.splitLinesFrom_ne_nil {opened t : Text} (h : opened ≠ [] ∨ t ≠ []) :
    Text.splitLinesFrom opened t ≠ [] := by
  fun_induction Text.splitLinesFrom opened t with
  | case1 => simp_all
  | case2 => exact List.cons_ne_nil _ _
  | case3 => exact List.cons_ne_nil _ _
  | case4 => exact List.cons_ne_nil _ _
  | case5 opened c cs _ _ ih => exact ih (.inl (List.cons_ne_nil _ _))

/-- Every fault of settings has something to say. -/
theorem SettingsFault.message_ne (fault : SettingsFault) : fault.message ≠ "" := by
  cases fault with
  | notMapping found =>
    rw [message, Document.NotMapping.message]
    simp
  | invalid faults =>
    rw [message, faultCount]
    simp

namespace Command

open Stage

variable {w : Workplace}

/-! ### Speaking -/

section Speaking

variable {α : Type}

/-- What is printed stands on the standard output as it is, if no escape character is in it. -/
theorem ends_print (hplain : w.tools.LeavesPlain) {text : Text} (h : '\x1B' ∉ text) :
    (print w text).Ends (.ok ()) text [] where
  value := rfl
  stdout := (List.append_nil _).trans (hplain text h)
  changes := rfl

theorem silent_tell (w : Workplace) (words : Text) : (tell w words).Silent := silent_told _

/-- The words of a run that ends are told, and it ends with its exit code. -/
theorem ends_leave (w : Workplace) (exitCode : Nat) (words : Text) :
    (leave w exitCode words : Stage α).Ends (.error (.exit exitCode)) [] [] := by
  rw [leave]
  split
  · exact (silent_tell w words).bind_ends rfl ((silent_stop _).ends rfl)
  · exact (silent_pure _).bind_ends rfl ((silent_stop _).ends rfl)

theorem silent_leave (w : Workplace) (exitCode : Nat) (words : Text) :
    (leave w exitCode words : Stage α).Silent :=
  ⟨(ends_leave w exitCode words).stdout, (ends_leave w exitCode words).changes⟩

theorem silent_leaveInShort (w : Workplace) (exitCode : Nat) (words : String) :
    (leaveInShort w exitCode words : Stage α).Silent := by
  rw [leaveInShort]
  split
  · exact silent_leave w exitCode _
  · exact silent_stop _

/-- Words that are there have a first line. -/
theorem value_leaveInShort (w : Workplace) (exitCode : Nat) {words : String} (h : words ≠ "") :
    (leaveInShort w exitCode words : Stage α).value = .error (.exit exitCode) := by
  rw [leaveInShort]
  split
  · exact (ends_leave w exitCode _).value
  · rename_i hnone
    have hne : words.toList ≠ [] := fun hnil => h (String.toList_eq_nil_iff.mp hnil)
    exact absurd hnone (Text.splitLinesFrom_ne_nil (.inr hne))

end Speaking

/-! ### The input -/

section Input

variable {path encoding : Text}

/-- Reading a file prints nothing and changes no file. -/
theorem silent_readText (w : Workplace) (path encoding : Text) :
    (readText w path encoding).Silent := by
  unfold readText
  dsimp only
  split
  · exact silent_stop _
  · split
    · exact silent_stop _
    · exact silent_leave w 3 _
    · split
      · exact silent_pure _
      · exact silent_leave w 3 _
      · exact silent_stop _
      · exact silent_stop _
      · exact silent_stop _

section Cases

variable {bytes : List UInt8} (hname : '\x00' ∉ encoding)

/-- No encoding has a name with the character of number zero in it, which escapes. -/
theorem readText_of_nullEncoding (h : '\x00' ∈ encoding) :
    readText w path encoding = .stop (.escaped .nullCharacter) := by
  rw [readText, if_pos (List.contains_iff_mem.mpr h)]

include hname

/-- No path has the character of number zero in it, which escapes. -/
theorem readText_of_nullPath (h : w.folder.read (.of path) = .error .nullCharacter) :
    readText w path encoding = .stop (.escaped .nullCharacter) := by
  rw [readText, if_neg (fun hmem => hname (List.contains_iff_mem.mp hmem)), h]

/-- A file that cannot be opened stops the run with 3. -/
theorem value_readText_of_unopened {fault : FileFault}
    (h : w.folder.read (.of path) = .error fault) (hne : fault ≠ .nullCharacter) :
    (readText w path encoding).value = .error (.exit 3) := by
  rw [readText, if_neg (fun hmem => hname (List.contains_iff_mem.mp hmem)), h]
  cases fault with
  | nullCharacter => exact absurd rfl hne
  | _ => exact (ends_leave w 3 _).value

/-- A file whose bytes encode a text is read, and its line ends become line feeds. -/
theorem readText_of_decode {text : Text} (hread : w.folder.read (.of path) = .ok bytes)
    (h : w.tools.decode encoding bytes = .ok text) :
    readText w path encoding = pure (Text.unifyBreaks text) := by
  rw [readText, if_neg (fun hmem => hname (List.contains_iff_mem.mp hmem)), hread]
  dsimp only
  rw [h]

/-- Bytes that encode nothing stop the run with 3. -/
theorem value_readText_of_undecodable {words : String}
    (hread : w.folder.read (.of path) = .ok bytes)
    (h : w.tools.decode encoding bytes = .error (.undecodable words)) :
    (readText w path encoding).value = .error (.exit 3) := by
  rw [readText, if_neg (fun hmem => hname (List.contains_iff_mem.mp hmem)), hread]
  dsimp only
  rw [h]
  exact (ends_leave w 3 _).value

/-- Any other fault of an encoding escapes. -/
theorem value_readText_of_escape {fault : CodecFault}
    (hread : w.folder.read (.of path) = .ok bytes)
    (h : w.tools.decode encoding bytes = .error fault)
    (hne : ∀ words, fault ≠ .undecodable words) :
    ∃ stop, (readText w path encoding).value = .error stop ∧ stop.exitCode = 1 := by
  rw [readText, if_neg (fun hmem => hname (List.contains_iff_mem.mp hmem)), hread]
  dsimp only
  rw [h]
  cases fault with
  | undecodable words => exact absurd rfl (hne words)
  | _ => exact ⟨_, rfl, rfl⟩

end Cases

/-- The exit codes for an input file that is not read as text. -/
structure InputCodes (w : Workplace) (path encoding : Text) (code : Nat) : Prop where
  nullEncoding : '\x00' ∈ encoding → code = 1
  nullPath : '\x00' ∉ encoding → w.folder.read (.of path) = .error .nullCharacter → code = 1
  unopened : ∀ fault, '\x00' ∉ encoding → w.folder.read (.of path) = .error fault →
    fault ≠ .nullCharacter → code = 3
  undecoded : ∀ bytes words, '\x00' ∉ encoding → w.folder.read (.of path) = .ok bytes →
    w.tools.decode encoding bytes = .error (.undecodable words) → code = 3
  escaped : ∀ bytes fault, '\x00' ∉ encoding → w.folder.read (.of path) = .ok bytes →
    w.tools.decode encoding bytes = .error fault → (∀ words, fault ≠ .undecodable words) → code = 1

/-- **Why an input file is not read as text**: a run that stops there has the exit code for it. -/
theorem inputCodes_of_readText {code : Nat}
    (h : ∀ stop, (readText w path encoding).value = .error stop → code = stop.exitCode) :
    InputCodes w path encoding code where
  nullEncoding hname := h (.escaped .nullCharacter) (by rw [readText_of_nullEncoding hname]; rfl)
  nullPath hname hread :=
    h (.escaped .nullCharacter) (by rw [readText_of_nullPath hname hread]; rfl)
  unopened _ hname hread hne := h _ (value_readText_of_unopened hname hread hne)
  undecoded _ _ hname hread hdecode := h _ (value_readText_of_undecodable hname hread hdecode)
  escaped _ _ hname hread hdecode hne := by
    obtain ⟨stop, hstop, hcode⟩ := value_readText_of_escape hname hread hdecode hne
    exact (h stop hstop).trans hcode

/-- Input that is not read as text never ends a run with 0. -/
theorem exitCode_of_readText {stop : Stop} (h : (readText w path encoding).value = .error stop) :
    stop.exitCode ≠ 0 := by
  have hcodes : InputCodes w path encoding stop.exitCode :=
    inputCodes_of_readText fun _ hstop => by cases h.symm.trans hstop; rfl
  by_cases hname : '\x00' ∈ encoding
  · rw [hcodes.nullEncoding hname]; decide
  · cases hread : w.folder.read (.of path) with
    | error fault =>
      by_cases hnull : fault = .nullCharacter
      · rw [hcodes.nullPath hname (hnull ▸ hread)]; decide
      · rw [hcodes.unopened fault hname hread hnull]; decide
    | ok bytes =>
      cases hdecode : w.tools.decode encoding bytes with
      | ok text => rw [readText_of_decode hname hread hdecode] at h; cases h
      | error fault =>
        by_cases hwords : ∃ words, fault = .undecodable words
        · obtain ⟨words, rfl⟩ := hwords
          rw [hcodes.undecoded bytes words hname hread hdecode]; decide
        · rw [hcodes.escaped bytes fault hname hread hdecode fun words hfault =>
            hwords ⟨words, hfault⟩]
          decide

end Input

/-! ### The settings -/

section Settings

variable {config locale : Option Text}

theorem silent_readOverride (w : Workplace) (config : Option Text) :
    (readOverride w config).Silent := by
  cases config with
  | none => exact silent_pure _
  | some path =>
    rw [readOverride]
    split
    · exact silent_leaveInShort w 4 _
    · exact silent_leave w 3 _
    · split
      · exact silent_pure _
      · exact silent_leaveInShort w 4 _

/-- Loading the settings prints nothing and changes no file. -/
theorem silent_loadSettings (w : Workplace) (config locale : Option Text) :
    (loadSettings w config locale).Silent := by
  refine silent_bind (silent_readOverride w config) fun override _ => ?_
  split
  · exact silent_leaveInShort w 4 _
  · exact silent_pure _

/-- The settings file cannot be opened. -/
def SettingsUnopened (w : Workplace) (config : Option Text) : Prop :=
  ∃ path, config = some path ∧
    ∃ fault, w.folder.read (.of path) = .error fault ∧ fault ≠ .nullCharacter

/-- Why the document of the user is not read. -/
theorem exitCode_of_readOverride (hwords : w.tools.GivesWords) {stop : Stop}
    (h : (readOverride w config).value = .error stop) :
    (SettingsUnopened w config ∧ stop.exitCode = 3) ∨
      (¬ SettingsUnopened w config ∧ stop.exitCode = 4) := by
  cases config with
  | none => cases h
  | some path =>
    rw [readOverride] at h
    cases hread : w.folder.read (.of path) with
    | error fault =>
      rw [hread] at h
      cases fault with
      | nullCharacter =>
        cases (value_leaveInShort w 4 (by decide)).symm.trans h
        refine .inr ⟨?_, rfl⟩
        rintro ⟨_, ⟨⟩, fault, hfault, hne⟩
        exact hne (Except.error.inj (hfault.symm.trans hread))
      | _ =>
        cases (ends_leave w 3 _).value.symm.trans h
        exact .inl ⟨⟨path, rfl, _, hread, nofun⟩, rfl⟩
    | ok bytes =>
      have hopened : ¬ SettingsUnopened w (some path) := by
        rintro ⟨_, ⟨⟩, fault, hfault, -⟩
        cases hfault.symm.trans hread
      rw [hread] at h
      dsimp only at h
      cases hdocument : w.tools.document bytes with
      | ok document => rw [hdocument] at h; cases h
      | error words =>
        rw [hdocument] at h
        cases (value_leaveInShort w 4 (hwords bytes words hdocument)).symm.trans h
        exact .inr ⟨hopened, rfl⟩

/-- A document of the user that is read stands in a file that can be opened. -/
theorem opened_of_readOverride {override : Option Document}
    (h : (readOverride w config).value = .ok override) : ¬ SettingsUnopened w config := by
  rintro ⟨path, rfl, fault, hfault, hne⟩
  rw [readOverride, hfault] at h
  cases fault with
  | nullCharacter => exact absurd rfl hne
  | _ => cases (ends_leave w 3 _).value.symm.trans h

/-- The locale of the command line stands over that of the settings that are loaded. -/
theorem value_loadSettings_of_ok {override : Option Document} {loaded : Settings}
    (hoverride : (readOverride w config).value = .ok override)
    (hload : Settings.loadBy w.tools.conversion override w.envLocale = .ok loaded) :
    (loadSettings w config locale).value =
      .ok { loaded with locale := (given locale).getD loaded.locale } := by
  rw [loadSettings, value_bind_of_ok hoverride, hload]
  rfl

/-- Settings are the loaded ones with the locale that is given, if one is. -/
theorem exists_of_loadSettings {s : Settings} (h : (loadSettings w config locale).value = .ok s) :
    ∃ override loaded, (readOverride w config).value = .ok override ∧
      Settings.loadBy w.tools.conversion override w.envLocale = .ok loaded ∧
        s = { loaded with locale := (given locale).getD loaded.locale } := by
  obtain ⟨override, hoverride, hrest⟩ := value_bind_eq_ok_iff.mp h
  cases hload : Settings.loadBy w.tools.conversion override w.envLocale with
  | error fault =>
    rw [hload] at hrest
    cases (value_leaveInShort w 4 (SettingsFault.message_ne fault)).symm.trans hrest
  | ok loaded =>
    cases (value_loadSettings_of_ok hoverride hload).symm.trans h
    exact ⟨override, loaded, hoverride, hload, rfl⟩

/-- **Why there are no settings**: with 3 if their file cannot be opened, else with 4. -/
theorem exitCode_of_loadSettings (hwords : w.tools.GivesWords) {stop : Stop}
    (h : (loadSettings w config locale).value = .error stop) :
    (SettingsUnopened w config ∧ stop.exitCode = 3) ∨
      (¬ SettingsUnopened w config ∧ stop.exitCode = 4) := by
  rcases value_bind_eq_error_iff.mp h with hread | ⟨override, hoverride, hrest⟩
  · exact exitCode_of_readOverride hwords hread
  · split at hrest
    · rename_i fault _
      cases (value_leaveInShort w 4 (SettingsFault.message_ne fault)).symm.trans hrest
      exact .inr ⟨opened_of_readOverride hoverride, rfl⟩
    · cases hrest

end Settings

/-! ### The detector -/

section Detector

variable {config locale : Option Text}

/-- Looking up a vocabulary prints nothing and changes no file, though it may warn. -/
theorem silent_findVocabulary (w : Workplace) (locale : Text) :
    (findVocabulary w locale).Silent := by
  refine silent_bind (silent_ofLogged _) fun found _ => ?_
  split
  · exact silent_pure _
  · split
    · exact silent_stop _
    · exact silent_leave w 4 _

/-- A vocabulary that the store gives is the one that is found. -/
theorem value_findVocabulary_of_ok {l : Text} {v : Vocabulary}
    (h : (w.store.vocabularyBy w.tools.rules (some l)).value = .ok v) :
    (findVocabulary w l).value = .ok v := by
  rw [findVocabulary, value_bind_of_ok rfl, h]
  rfl

/-- A fault of a bundle stops the run with 4, or escapes. -/
theorem value_findVocabulary_of_error {l : Text} {fault : BundleFault}
    (h : (w.store.vocabularyBy w.tools.rules (some l)).value = .error fault) :
    ∃ stop, (findVocabulary w l).value = .error stop ∧
      stop.exitCode = if fault.escapes then 1 else 4 := by
  rw [findVocabulary, value_bind_of_ok rfl, h]
  dsimp only
  split
  · exact ⟨_, rfl, rfl⟩
  · exact ⟨_, (ends_leave w 4 _).value, rfl⟩

/-- **Why there is no vocabulary**, and the exit code for it. -/
theorem exitCode_of_findVocabulary {l : Text} {stop : Stop}
    (h : (findVocabulary w l).value = .error stop) :
    ∃ fault, (w.store.vocabularyBy w.tools.rules (some l)).value = .error fault ∧
      stop.exitCode = if fault.escapes then 1 else 4 := by
  cases hfound : (w.store.vocabularyBy w.tools.rules (some l)).value with
  | ok v => cases (value_findVocabulary_of_ok hfound).symm.trans h
  | error fault =>
    obtain ⟨_, hstop, hcode⟩ := value_findVocabulary_of_error hfound
    cases hstop.symm.trans h
    exact ⟨fault, rfl, hcode⟩

/-- Building a detector prints nothing and changes no file. -/
theorem silent_buildDetector (w : Workplace) (config locale : Option Text) :
    (buildDetector w config locale).Silent :=
  silent_bind (silent_loadSettings w config locale) fun _ _ =>
    silent_bind (silent_findVocabulary w _) fun _ _ => silent_pure _

/-- A detector is built of settings that are loaded and of the vocabulary of their locale. -/
theorem exists_of_buildDetector {d : Detector}
    (h : (buildDetector w config locale).value = .ok d) :
    ∃ s v, (loadSettings w config locale).value = .ok s ∧
      (findVocabulary w s.locale).value = .ok v ∧ d = .of s v := by
  obtain ⟨s, hload, hrest⟩ := value_bind_eq_ok_iff.mp h
  obtain ⟨v, hfind, hd⟩ := value_bind_eq_ok_iff.mp hrest
  cases hd
  exact ⟨s, v, hload, hfind, rfl⟩

/-- **A detector that is built** has settings within bounds. -/
theorem withinBounds_of_buildDetector {d : Detector}
    (h : (buildDetector w config locale).value = .ok d) : d.settings.WithinBounds := by
  obtain ⟨s, v, hload, -, rfl⟩ := exists_of_buildDetector h
  obtain ⟨_, loaded, -, hloaded, rfl⟩ := exists_of_loadSettings hload
  obtain ⟨hversion, hlimit, hcalibration⟩ := Settings.withinBounds_of_load hloaded
  exact ⟨hversion, hlimit, hcalibration⟩

end Detector

/-! ### The messages -/

section Messages

variable {d : Detector}

/-- The verdict of a detector on a message. -/
def Says (d : Detector) (message : Text) (v : Verdict) : Prop :=
  ∃ l, d.explain message = .ok l ∧ l.value.verdict = v

/-- The line on which a verdict is written. -/
def verdictRow (v : Verdict) : Text := line v.toDocument

/-- A document is printed as one line. -/
theorem isLine_line (document : Document) : (line document).IsLine :=
  (Document.shown_render document).isLine

/-- No document is written with an escape character. -/
theorem escape_notMem_line (document : Document) : '\x1B' ∉ line document :=
  (Document.shown_render document).escape_notMem

/-- The rows of verdicts have no escape character either. -/
theorem escape_notMem_rows (verdicts : List Verdict) :
    '\x1B' ∉ (verdicts.map verdictRow).flatten := by
  intro hmem
  obtain ⟨row, hrow, hin⟩ := List.mem_flatten.mp hmem
  obtain ⟨v, -, rfl⟩ := List.mem_map.mp hrow
  exact escape_notMem_line v.toDocument hin

theorem silent_explain (d : Detector) (message : Text) : (explain d message).Silent := by
  rw [explain]
  split
  · exact silent_stop _
  · exact silent_ofLogged _

/-- **One message** under settings within bounds is explained. -/
theorem value_explain (hd : d.settings.WithinBounds) (message : Text) :
    ∃ l, d.explain message = .ok l ∧ (explain d message).value = .ok l.value := by
  obtain ⟨l, hexplain, -⟩ := Detector.exists_explanation hd message
  refine ⟨l, hexplain, ?_⟩
  rw [explain, hexplain]
  rfl

/-- Rows are made before any of them is printed. -/
theorem silent_rows (d : Detector) (messages : List Text) : (rows d messages).Silent := by
  induction messages with
  | nil => exact silent_pure _
  | cons message rest ih =>
    exact silent_bind (silent_explain d message) fun _ _ =>
      silent_bind ih fun _ _ => silent_pure _

/-- **Many messages** have the rows of their verdicts, one after the other, and as many of them have
a code as are of a kind that carries one. -/
theorem value_rows (hd : d.settings.WithinBounds) (messages : List Text) :
    ∃ verdicts, List.Forall₂ (Says d) messages verdicts ∧
      (rows d messages).value = .ok
        ((verdicts.map verdictRow).flatten, verdicts.countP (fun v => v.code.isSome)) := by
  induction messages with
  | nil => exact ⟨[], .nil, rfl⟩
  | cons message rest ih =>
    obtain ⟨l, hexplain, hvalue⟩ := value_explain hd message
    have hcode := Detector.code_isSome_of_explain hd hexplain
    obtain ⟨verdicts, hsaid, hrest⟩ := ih
    refine ⟨l.value.verdict :: verdicts, .cons ⟨l, hexplain, rfl⟩ hsaid, ?_⟩
    rw [rows, value_bind_of_ok hvalue, value_bind_of_ok hrest, List.countP_cons, hcode]
    cases (l.value.verdict.isOtp || l.value.verdict.isParcel) <;> rfl

end Messages

/-! ### The delivery -/

section Delivery

variable {text : Text}

/-- A file that takes a text whole is emptied, and then holds the text. -/
theorem ends_write_whole {names : List Text} (h : w.breaksOff names text = none) :
    (write w names text).Ends (.ok ()) [] [(names, []), (names, text)] := by
  refine (ends_perform (.wrote names [])).bind ?_
  rw [h]
  exact ends_perform (.wrote names text)

/-- Writing that breaks off leaves the beginning of the text in the file and stops with 3. -/
theorem ends_write_broken {names : List Text} {count : Nat} {words : String}
    (h : w.breaksOff names text = some (count, words)) :
    (write w names text).Ends (.error (.exit 3)) []
      [(names, []), (names, text.take count)] := by
  refine (ends_perform (.wrote names [])).bind ?_
  rw [h]
  exact (ends_perform (.wrote names (text.take count))).bind (ends_leave w 3 _)

/-- **A delivery that fails** ends with 3, or with 1 where a path is refused. -/
theorem ends_deliver_of_fault {path : Text} {fault : FileFault}
    (h : w.folder.target (.of path) = .error fault) :
    ∃ stop, (deliver w (some path) text).Ends (.error stop) [] [] ∧
      stop.exitCode = if fault = .nullCharacter then 1 else 3 := by
  rw [deliver, h]
  cases fault with
  | nullCharacter => exact ⟨_, (silent_stop _).ends rfl, rfl⟩
  | _ => exact ⟨_, ends_leave w 3 _, rfl⟩

/-- A path that names a place is delivered to by writing there. -/
theorem deliver_of_target {path : Text} {names : List Text}
    (h : w.folder.target (.of path) = .ok names) :
    deliver w (some path) text = write w names text := by
  rw [deliver, h]

/-- What is seen of the delivery of a text, with the exit code, the standard output and the changed
files: it is printed, it is written into a file as a whole or in part, or there is no such file. -/
inductive Delivery (w : Workplace) (text : Text) :
    Option Text → Nat → Text → List (List Text × Text) → Prop where
  | printed : Delivery w text none 0 text []
  /-- The file is emptied, and then holds the text. -/
  | written {path : Text} {names : List Text} (htarget : w.folder.target (.of path) = .ok names)
      (hwhole : w.breaksOff names text = none) :
      Delivery w text (some path) 0 [] [(names, []), (names, text)]
  /-- The file is emptied, and then holds the beginning of the text. -/
  | brokenOff {path : Text} {names : List Text} {count : Nat} {words : String}
      (htarget : w.folder.target (.of path) = .ok names)
      (hbroken : w.breaksOff names text = some (count, words)) :
      Delivery w text (some path) 3 [] [(names, []), (names, text.take count)]
  | unopened {path : Text} {fault : FileFault}
      (htarget : w.folder.target (.of path) = .error fault) :
      Delivery w text (some path) (if fault = .nullCharacter then 1 else 3) [] []

/-- The exit code of a command that comes to a value or stops. -/
def codeOf (value : Except Stop Unit) : Nat :=
  match value with
  | .ok _ => 0
  | .error stop => stop.exitCode

/-- **A delivery** ends in one of these ways, and if it stops, then not with 0. -/
theorem exists_delivery (hplain : w.tools.LeavesPlain) (hescape : '\x1B' ∉ text)
    (output : Option Text) :
    ∃ value out changes, (deliver w output text).Ends value out changes ∧
      Delivery w text output (codeOf value) out changes ∧
        (codeOf value = 0 → value = .ok ()) := by
  cases output with
  | none => exact ⟨_, _, _, ends_print hplain hescape, .printed, fun _ => rfl⟩
  | some path =>
    cases htarget : w.folder.target (.of path) with
    | error fault =>
      obtain ⟨stop, hends, hcode⟩ := ends_deliver_of_fault htarget
      have hdelivery : Delivery w text (some path) stop.exitCode [] [] :=
        hcode ▸ .unopened htarget
      have hne : stop.exitCode ≠ 0 := by
        rw [hcode]
        split <;> decide
      exact ⟨_, _, _, hends, hdelivery, fun hzero => absurd hzero hne⟩
    | ok names =>
      rw [deliver_of_target htarget]
      cases hbreaks : w.breaksOff names text with
      | none =>
        exact ⟨_, _, _, ends_write_whole hbreaks, .written htarget hbreaks, fun _ => rfl⟩
      | some rest =>
        exact ⟨_, _, _, ends_write_broken hbreaks, .brokenOff htarget hbreaks, nofun⟩

/-- **A delivery that fails** prints nothing, and changes a file only if the writing broke off. -/
theorem Delivery.of_ne_zero {output : Option Text} {out : Text} {code : Nat}
    {changes : List (List Text × Text)} (h : Delivery w text output code out changes)
    (hne : code ≠ 0) :
    out = [] ∧ (changes = [] ∨ ∃ path names count words, output = some path ∧
      w.folder.target (.of path) = .ok names ∧ w.breaksOff names text = some (count, words) ∧
        code = 3 ∧ changes = [(names, []), (names, text.take count)]) := by
  cases h with
  | printed => exact absurd rfl hne
  | written => exact absurd rfl hne
  | brokenOff htarget hbroken => exact ⟨rfl, .inr ⟨_, _, _, _, rfl, htarget, hbroken, rfl, rfl⟩⟩
  | unopened => exact ⟨rfl, .inl rfl⟩

/-- Without an output file a text is printed. -/
theorem Delivery.of_none {out : Text} {code : Nat} {changes : List (List Text × Text)}
    (h : Delivery w text none code out changes) : code = 0 ∧ out = text ∧ changes = [] := by
  cases h
  exact ⟨rfl, rfl, rfl⟩

/-- A file that cannot be opened is not changed. -/
theorem Delivery.of_fault {path out : Text} {fault : FileFault} {code : Nat}
    {changes : List (List Text × Text)} (h : Delivery w text (some path) code out changes)
    (htarget : w.folder.target (.of path) = .error fault) :
    code = if fault = .nullCharacter then 1 else 3 := by
  cases h with
  | written htarget' => cases htarget.symm.trans htarget'
  | brokenOff htarget' => cases htarget.symm.trans htarget'
  | unopened htarget' => cases htarget.symm.trans htarget'; rfl

/-- Into a file that takes it whole, a text is written. -/
theorem Delivery.of_target {path out : Text} {names : List Text} {code : Nat}
    {changes : List (List Text × Text)} (h : Delivery w text (some path) code out changes)
    (htarget : w.folder.target (.of path) = .ok names) (hwhole : w.breaksOff names text = none) :
    code = 0 ∧ out = [] ∧ changes = [(names, []), (names, text)] := by
  cases h with
  | written htarget' => cases htarget.symm.trans htarget'; exact ⟨rfl, rfl, rfl⟩
  | brokenOff htarget' hbroken =>
    cases htarget.symm.trans htarget'
    cases hwhole.symm.trans hbroken
  | unopened htarget' => cases htarget.symm.trans htarget'

end Delivery

/-! ### The outcome -/

/-- Arguments that are a request are run as that request. -/
theorem run_of_parse {arguments : List Text} {request : Request}
    (h : w.tools.parse arguments = .ok request) : run w arguments = execute w request := by
  rw [run, h]

/-- What is seen of a request is what is seen of its stages. -/
theorem execute_of_ends {request : Request} {value : Except Stop Unit} {out : Text}
    {changes : List (List Text × Text)} (h : (answer w request).Ends value out changes) :
    (execute w request).exitCode = codeOf value ∧ (execute w request).stdout = out ∧
      (execute w request).changes = changes := by
  refine ⟨?_, h.stdout, h.changes⟩
  rw [execute, Outcome.exitCode, h.value]
  cases value <;> rfl

end Command

end Passcode
