import Passcode.Settings.Basic
import Passcode.Settings.Conversion
import Passcode.Text.Lowercase
import Passcode.Vocabulary.Store

/-!
# Reading settings out of documents

`Settings.loadBy` lays the document of the user over the default one, reads the result with its
leaves converted, and takes the locale of the environment over that of the documents, if it is not
blank.

Reading finds every fault (`Reading`): section by section, the declared keys in their order, and
then the keys that are not declared, sorted.  A fault has the path of keys that leads to it.
-/

namespace Passcode

/-- A fault of a document, and where it is. -/
structure Fault where
  path : List String
  kind : FaultKind
deriving DecidableEq, Repr

/-- A value that is read, or all the faults that keep it from being read. -/
abbrev Reading (α : Type) := Except (List Fault) α

namespace Reading

/-- Gives a read value to a read function; the faults of both are kept, in order. -/
def apply {α β : Type} : Reading (α → β) → Reading α → Reading β
  | .ok f, .ok x => .ok (f x)
  | .ok _, .error e => .error e
  | .error e, .ok _ => .error e
  | .error e, .error e' => .error (e ++ e')

/-- Reads the key of a mapping at a path. -/
def field {α : Type} (path : List String) (fields : Fields) (key : String)
    (read : List String → Document → Reading α) : Reading α :=
  match fields.get? key with
  | some d => read (path ++ [key]) d
  | none => .error [⟨path ++ [key], .missing⟩]

/-- Reads a leaf at a path. -/
def leaf {α : Type} (convert : Document → Except FaultKind α) (path : List String) (d : Document) :
    Reading α :=
  match convert d with
  | .ok x => .ok x
  | .error kind => .error [⟨path, kind⟩]

/-- Keeps a read value if the mapping has no keys but the declared ones. -/
def closed {α : Type} (path : List String) (fields : Fields) (declared : List String)
    (value : Reading α) : Reading α :=
  let extra := ((fields.map Prod.fst).filter (fun k => !declared.contains k)).mergeSort
    (fun a b => decide (a ≤ b))
  let refused : Reading Unit :=
    if extra.isEmpty then .ok ()
    else .error (extra.map (fun k => ⟨path ++ [k], .extraForbidden⟩))
  apply (value.map (fun x _ => x)) refused

/-- Reads a section, which must be a mapping. -/
def mapping {α : Type} (read : List String → Fields → Reading α) (path : List String) :
    Document → Reading α
  | .mapping fields => read path fields
  | _ => .error [⟨path, .modelType⟩]

end Reading

namespace Settings

variable (c : Conversion)

open Reading in
/-- Reads the bound of messages. -/
def readLimits (path : List String) (fields : Fields) : Reading Nat :=
  closed path fields ["max_message_length"]
    (field path fields "max_message_length" (leaf (c.intAtLeast 1)))

open Reading in
/-- Reads the windows of the signals: the money radius and the phone window. -/
def readWindows (path : List String) (fields : Fields) : Reading (Nat × Nat) :=
  closed path fields ["money_radius", "phone_prefix_window"]
    (apply (apply (.ok Prod.mk)
      (field path fields "money_radius" (leaf (c.intAtLeast 0))))
      (field path fields "phone_prefix_window" (leaf (c.intAtLeast 0))))

open Reading in
/-- Reads the settings of the calibration. -/
def readCalibration (path : List String) (fields : Fields) : Reading CalibrationSettings :=
  closed path fields
    ["score_scale", "otp_threshold", "keyword_boost", "safety_boost", "parcel_boost"]
    (apply (apply (apply (apply (apply (.ok CalibrationSettings.mk)
      (field path fields "score_scale" (leaf c.above)))
      (field path fields "otp_threshold" (leaf c.between)))
      (field path fields "keyword_boost" (leaf c.between)))
      (field path fields "safety_boost" (leaf c.between)))
      (field path fields "parcel_boost" (leaf c.between)))

open Reading in
/-- Reads settings out of the fields of a document. -/
def ofFields (fields : Fields) : Reading Settings :=
  let assemble (version : Nat) (locale : Text) (limit : Nat) (windows : Nat × Nat)
      (calibration : CalibrationSettings) : Settings :=
    { schemaVersion := version, locale, maxMessageLength := limit, moneyRadius := windows.1,
      phoneWindow := windows.2, calibration }
  closed [] fields ["schema_version", "locale", "limits", "scoring", "calibration"]
    (apply (apply (apply (apply (apply (.ok assemble)
      (field [] fields "schema_version" (leaf (c.intAtLeast 1))))
      (field [] fields "locale" (leaf c.name)))
      (field [] fields "limits" (mapping (readLimits c))))
      (field [] fields "scoring" (mapping (readWindows c))))
      (field [] fields "calibration" (mapping (readCalibration c))))

end Settings

/-- Why there are no settings. -/
inductive SettingsFault where
  /-- The document of the user is not a mapping. -/
  | notMapping (found : Document.NotMapping)
  /-- The merged document has faults. -/
  | invalid (faults : List Fault)

/-- The words for settings that cannot be loaded. -/
def SettingsFault.message : SettingsFault → String
  | .notMapping found => found.message
  | .invalid faults => faultCount faults.length "ConfigModel"

namespace Settings

variable (c : Conversion)

/-- The name of the variable of the environment that gives the locale. -/
def localeVariable : String := "OTPSCAN_LOCALE"

/-- The settings with the locale of the environment, if that is not blank. -/
def withEnvironment (envLocale : Option Text) (s : Settings) : Settings :=
  let locale := Text.trim (envLocale.getD [])
  if locale.isEmpty then s else { s with locale }

/-- The settings by the document of the user, if there is one, and by the locale of the
environment. -/
def loadBy (override : Option Document) (envLocale : Option Text) :
    Except SettingsFault Settings :=
  let merged := match override with
    | some d => Document.mergeOver defaultFields d.orEmpty
    | none => .ok defaultFields
  match merged with
  | .error found => .error (.notMapping found)
  | .ok fields =>
    match ofFields c fields with
    | .error faults => .error (.invalid faults)
    | .ok settings => .ok (settings.withEnvironment envLocale)

end Settings

end Passcode
