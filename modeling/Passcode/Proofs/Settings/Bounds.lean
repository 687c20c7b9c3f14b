import Passcode.Settings.Leaf

/-!
# Bounds — the settings that validation lets through

`Settings.WithinBounds` lists what validation asks of settings.  A bound refuses a number that
compares beyond it, so each field of the calibration may be `nan`, and the scale may be infinity.

Settings are within bounds exactly if some document reads as them (`withinBounds_iff_read`): each
reader gives a value only if the value passes its bound, and the document of settings within bounds
reads as those settings again.
-/

namespace Passcode

/-! ### What validation asks -/

/-- The value compares neither above 1 nor below 0. -/
def Binary64.PassesUnit (x : Binary64) : Prop := Binary64.one.lt x = false ∧ x.lt .zero = false

/-- What validation asks of the settings of the calibration. -/
structure CalibrationSettings.WithinBounds (c : CalibrationSettings) : Prop where
  scale : c.scale.le .zero = false
  threshold : c.threshold.PassesUnit
  keywordBoost : c.keywordBoost.PassesUnit
  safetyBoost : c.safetyBoost.PassesUnit
  parcelBoost : c.parcelBoost.PassesUnit

/-- What validation asks of settings. -/
structure Settings.WithinBounds (s : Settings) : Prop where
  schemaVersion : 1 ≤ s.schemaVersion
  maxMessageLength : 1 ≤ s.maxMessageLength
  calibration : s.calibration.WithinBounds

/-! ### Readers, and when they give a value -/

namespace Reading

variable {α β : Type}

/-- Two readings are put together into a value exactly if both give one. -/
theorem apply_eq_ok_iff {f : Reading (α → β)} {x : Reading α} {y : β} :
    apply f x = .ok y ↔ ∃ g a, f = .ok g ∧ x = .ok a ∧ g a = y := by
  cases f <;> cases x <;> simp [apply]

/-- A field is read exactly if it is there and what it holds is read. -/
theorem field_eq_ok_iff {path : List String} {fields : Fields} {key : String}
    {read : List String → Document → Reading α} {x : α} :
    field path fields key read = .ok x ↔
      ∃ d, fields.get? key = some d ∧ read (path ++ [key]) d = .ok x := by
  cases h : fields.get? key <;> simp [field, h]

/-- A leaf is read as what it is converted to. -/
theorem leaf_eq_ok_iff {convert : Document → Except FaultKind α} {path : List String}
    {d : Document} {x : α} : leaf convert path d = .ok x ↔ convert d = .ok x := by
  cases h : convert d <;> simp [leaf, h]

/-- A mapping is read by its fields, and nothing else is read as one. -/
theorem mapping_eq_ok_iff {read : List String → Fields → Reading α} {path : List String}
    {d : Document} {x : α} :
    mapping read path d = .ok x ↔ ∃ fields, d = .mapping fields ∧ read path fields = .ok x := by
  cases d <;> simp [mapping]

/-- A mapping is closed if each of its keys is declared. -/
theorem closed_eq_ok_iff {path : List String} {fields : Fields} {declared : List String}
    {value : Reading α} {x : α} :
    closed path fields declared value = .ok x ↔
      value = .ok x ∧ ∀ key ∈ fields.map Prod.fst, key ∈ declared := by
  have hextra : (((fields.map Prod.fst).filter (fun k => !declared.contains k)).mergeSort
      (fun a b => decide (a ≤ b))).isEmpty = true ↔
        ∀ key ∈ fields.map Prod.fst, key ∈ declared := by
    rw [List.isEmpty_iff, ← List.length_eq_zero_iff, List.length_mergeSort, List.length_eq_zero_iff,
      List.filter_eq_nil_iff]
    simp only [Bool.not_eq_true', Bool.not_eq_false, List.contains_iff_mem]
  unfold closed
  dsimp only
  rw [apply_eq_ok_iff, ← hextra]
  cases value with
  | error e =>
    constructor
    · rintro ⟨_, _, hg, -⟩
      cases hg
    · rintro ⟨h, -⟩
      cases h
  | ok y =>
    split
    · rename_i hempty
      constructor
      · rintro ⟨_, _, hg, -, hx⟩
        cases hg
        exact ⟨congrArg _ hx, hempty⟩
      · rintro ⟨h, -⟩
        exact ⟨_, (), rfl, rfl, Except.ok.inj h⟩
    · rename_i hempty
      constructor
      · rintro ⟨_, _, -, h, -⟩
        cases h
      · rintro ⟨-, h⟩
        exact absurd h hempty

end Reading

namespace Conversion

variable {c : Conversion}

/-- An integer with a least value is what the conversion gives, if that is not below it. -/
theorem intAtLeast_eq_ok_iff {least n : Nat} {d : Document} :
    c.intAtLeast least d = .ok n ↔ c.int d = .ok (n : Int) ∧ least ≤ n := by
  unfold intAtLeast
  cases c.int d with
  | error kind => exact ⟨nofun, nofun⟩
  | ok k =>
    simp only [Except.ok.injEq]
    split
    · rename_i hlt
      constructor
      · exact nofun
      · rintro ⟨rfl, hle⟩; omega
    · rename_i hle
      rw [Except.ok.injEq]
      omega

/-- A share is a number that the conversion gives and that passes for one. -/
theorem between_eq_ok_iff {d : Document} {x : Binary64} :
    c.between d = .ok x ↔ c.number d = .ok x ∧ x.PassesUnit := by
  unfold between Binary64.PassesUnit
  cases c.number d with
  | error kind => exact ⟨nofun, nofun⟩
  | ok y =>
    simp only [Except.ok.injEq]
    split
    · rename_i hone
      constructor
      · exact nofun
      · rintro ⟨rfl, hone', -⟩; rw [hone] at hone'; cases hone'
    · split
      · rename_i hzero
        constructor
        · exact nofun
        · rintro ⟨rfl, -, hzero'⟩; rw [hzero] at hzero'; cases hzero'
      · rename_i hone hzero
        rw [Except.ok.injEq]
        constructor
        · rintro rfl
          exact ⟨rfl, Bool.not_eq_true _ ▸ hone, Bool.not_eq_true _ ▸ hzero⟩
        · exact And.left

/-- A scale is a number that the conversion gives and that is not at most zero. -/
theorem above_eq_ok_iff {d : Document} {x : Binary64} :
    c.above d = .ok x ↔ c.number d = .ok x ∧ x.le .zero = false := by
  unfold above
  cases c.number d with
  | error kind => exact ⟨nofun, nofun⟩
  | ok y =>
    simp only [Except.ok.injEq]
    split
    · rename_i hzero
      constructor
      · exact nofun
      · rintro ⟨rfl, hzero'⟩; rw [hzero] at hzero'; cases hzero'
    · rename_i hzero
      rw [Except.ok.injEq]
      constructor
      · rintro rfl
        exact ⟨rfl, Bool.not_eq_true _ ▸ hzero⟩
      · exact And.left

namespace Keeps

variable (hc : c.Keeps)

include hc

theorem intAtLeast_int {least n : Nat} (h : least ≤ n) : c.intAtLeast least (.int n) = .ok n :=
  intAtLeast_eq_ok_iff.mpr ⟨hc.int n, h⟩

theorem between_float {x : Binary64} (h : x.PassesUnit) : c.between (.float x) = .ok x :=
  between_eq_ok_iff.mpr ⟨hc.number x, h⟩

theorem above_float {x : Binary64} (h : x.le .zero = false) : c.above (.float x) = .ok x :=
  above_eq_ok_iff.mpr ⟨hc.number x, h⟩

theorem name_ofList (t : Text) : c.name (.string (String.ofList t)) = .ok t := by
  rw [hc.name, String.toList_ofList]

end Keeps

/-- The generous conversion keeps what has the kind that is asked for. -/
theorem generous_keeps : generous.Keeps := ⟨fun _ => rfl, fun _ => rfl, fun _ => rfl⟩

end Conversion

/-! ### Settings that can be read -/

namespace Settings
open Reading

variable {c : Conversion}

/-! A section is read if each of its fields is, and all its keys are declared. -/

/-- The windows are read exactly if both are read and there is no other field. -/
theorem readWindows_eq_ok_iff {path : List String} {fields : Fields} {windows : Nat × Nat} :
    readWindows c path fields = .ok windows ↔
      (field path fields "money_radius" (leaf (c.intAtLeast 0)) = .ok windows.1 ∧
        field path fields "phone_prefix_window" (leaf (c.intAtLeast 0)) = .ok windows.2) ∧
        ∀ key ∈ fields.map Prod.fst, key ∈ ["money_radius", "phone_prefix_window"] := by
  rw [readWindows, closed_eq_ok_iff]
  refine and_congr_left' ?_
  simp only [apply_eq_ok_iff]
  constructor
  · rintro ⟨_, _, ⟨_, _, hmk, h₁, rfl⟩, h₂, rfl⟩
    cases hmk
    exact ⟨h₁, h₂⟩
  · rintro ⟨h₁, h₂⟩
    exact ⟨_, _, ⟨_, _, rfl, h₁, rfl⟩, h₂, rfl⟩

/-- The calibration is read exactly if its five numbers are and there is no other field. -/
theorem readCalibration_eq_ok_iff {path : List String} {fields : Fields}
    {k : CalibrationSettings} :
    readCalibration c path fields = .ok k ↔
      (field path fields "score_scale" (leaf c.above) = .ok k.scale ∧
        field path fields "otp_threshold" (leaf c.between) = .ok k.threshold ∧
          field path fields "keyword_boost" (leaf c.between) = .ok k.keywordBoost ∧
            field path fields "safety_boost" (leaf c.between) = .ok k.safetyBoost ∧
              field path fields "parcel_boost" (leaf c.between) = .ok k.parcelBoost) ∧
        ∀ key ∈ fields.map Prod.fst, key ∈
          ["score_scale", "otp_threshold", "keyword_boost", "safety_boost", "parcel_boost"] := by
  rw [readCalibration, closed_eq_ok_iff]
  refine and_congr_left' ?_
  simp only [apply_eq_ok_iff]
  constructor
  · rintro ⟨_, _, ⟨_, _, ⟨_, _, ⟨_, _, ⟨_, _, hmk, h₁, rfl⟩, h₂, rfl⟩, h₃, rfl⟩, h₄, rfl⟩, h₅, rfl⟩
    cases hmk
    exact ⟨h₁, h₂, h₃, h₄, h₅⟩
  · rintro ⟨h₁, h₂, h₃, h₄, h₅⟩
    exact ⟨_, _, ⟨_, _, ⟨_, _, ⟨_, _, ⟨_, _, rfl, h₁, rfl⟩, h₂, rfl⟩, h₃, rfl⟩, h₄, rfl⟩, h₅, rfl⟩

/-- Settings are read exactly if all their sections are and there is no other field. -/
theorem ofFields_eq_ok_iff {fields : Fields} {s : Settings} :
    ofFields c fields = .ok s ↔
      (field [] fields "schema_version" (leaf (c.intAtLeast 1)) = .ok s.schemaVersion ∧
        field [] fields "locale" (leaf c.name) = .ok s.locale ∧
          field [] fields "limits" (mapping (readLimits c)) = .ok s.maxMessageLength ∧
            field [] fields "scoring" (mapping (readWindows c)) =
              .ok (s.moneyRadius, s.phoneWindow) ∧
              field [] fields "calibration" (mapping (readCalibration c)) = .ok s.calibration) ∧
        ∀ key ∈ fields.map Prod.fst, key ∈
          ["schema_version", "locale", "limits", "scoring", "calibration"] := by
  rw [ofFields, closed_eq_ok_iff]
  refine and_congr_left' ?_
  simp only [apply_eq_ok_iff]
  constructor
  · rintro ⟨_, _, ⟨_, _, ⟨_, _, ⟨_, _, ⟨_, _, hmk, h₁, rfl⟩, h₂, rfl⟩, h₃, rfl⟩, h₄, rfl⟩, h₅, rfl⟩
    cases hmk
    exact ⟨h₁, h₂, h₃, h₄, h₅⟩
  · rintro ⟨h₁, h₂, h₃, h₄, h₅⟩
    exact ⟨_, _, ⟨_, _, ⟨_, _, ⟨_, _, ⟨_, _, rfl, h₁, rfl⟩, h₂, rfl⟩, h₃, rfl⟩, h₄, rfl⟩, h₅, rfl⟩

/-- What is read as a calibration is within the bounds of one. -/
theorem withinBounds_of_readCalibration {path : List String} {fields : Fields}
    {k : CalibrationSettings} (h : readCalibration c path fields = .ok k) : k.WithinBounds := by
  obtain ⟨⟨hsc, ht, hk, hsf, hp⟩, -⟩ := readCalibration_eq_ok_iff.mp h
  have unit : ∀ {key : String} {x : Binary64},
      field path fields key (leaf c.between) = .ok x → x.PassesUnit := fun hx => by
    obtain ⟨d, -, hd⟩ := field_eq_ok_iff.mp hx
    exact (Conversion.between_eq_ok_iff.mp (leaf_eq_ok_iff.mp hd)).2
  obtain ⟨d, -, hd⟩ := field_eq_ok_iff.mp hsc
  have hscale := (Conversion.above_eq_ok_iff.mp (leaf_eq_ok_iff.mp hd)).2
  exact ⟨hscale, unit ht, unit hk, unit hsf, unit hp⟩

/-- What is read as settings is within their bounds, whatever the conversion is. -/
theorem withinBounds_of_ofFields {fields : Fields} {s : Settings} (h : ofFields c fields = .ok s) :
    s.WithinBounds := by
  obtain ⟨⟨hv, -, hn, -, hc⟩, -⟩ := ofFields_eq_ok_iff.mp h
  refine ⟨?_, ?_, ?_⟩
  · obtain ⟨d, -, hd⟩ := field_eq_ok_iff.mp hv
    exact (Conversion.intAtLeast_eq_ok_iff.mp (leaf_eq_ok_iff.mp hd)).2
  · obtain ⟨d, -, hd⟩ := field_eq_ok_iff.mp hn
    obtain ⟨limits, -, hd⟩ := mapping_eq_ok_iff.mp hd
    obtain ⟨e, -, he⟩ := field_eq_ok_iff.mp (closed_eq_ok_iff.mp hd).1
    exact (Conversion.intAtLeast_eq_ok_iff.mp (leaf_eq_ok_iff.mp he)).2
  · obtain ⟨d, -, hd⟩ := field_eq_ok_iff.mp hc
    obtain ⟨calibration, -, hd⟩ := mapping_eq_ok_iff.mp hd
    exact withinBounds_of_readCalibration hd

section Keeps

variable (hc : c.Keeps)

include hc

/-- A calibration within its bounds is read back from its fields. -/
theorem readCalibration_fields (path : List String) {k : CalibrationSettings}
    (h : k.WithinBounds) :
    readCalibration c path
      [("score_scale", .float k.scale), ("otp_threshold", .float k.threshold),
       ("keyword_boost", .float k.keywordBoost), ("safety_boost", .float k.safetyBoost),
       ("parcel_boost", .float k.parcelBoost)] = .ok k := by
  refine readCalibration_eq_ok_iff.mpr ⟨?_, by simp⟩
  simp [field, Fields.get?, leaf, hc.above_float h.scale, hc.between_float h.threshold,
    hc.between_float h.keywordBoost, hc.between_float h.safetyBoost, hc.between_float h.parcelBoost]

/-- The document of settings within bounds reads as those settings. -/
theorem ofFields_toDocument {s : Settings} (h : s.WithinBounds) :
    ∃ fields, s.toDocument = .mapping fields ∧ ofFields c fields = .ok s := by
  refine ⟨_, rfl, ?_⟩
  have hlimits : ∀ path, readLimits c path [("max_message_length", .int s.maxMessageLength)] =
      .ok s.maxMessageLength := fun path => by
    refine closed_eq_ok_iff.mpr ⟨?_, by simp⟩
    simp [field, Fields.get?, leaf, hc.intAtLeast_int h.maxMessageLength]
  have hwindows : ∀ path, readWindows c path
      [("money_radius", .int s.moneyRadius), ("phone_prefix_window", .int s.phoneWindow)] =
        .ok (s.moneyRadius, s.phoneWindow) := fun path => by
    refine readWindows_eq_ok_iff.mpr ⟨?_, by simp⟩
    simp [field, Fields.get?, leaf, hc.intAtLeast_int (Nat.zero_le _)]
  refine ofFields_eq_ok_iff.mpr ⟨?_, by simp⟩
  simp [field, Fields.get?, leaf, mapping, hc.intAtLeast_int h.schemaVersion, hc.name_ofList,
    hlimits, hwindows, readCalibration_fields hc _ h.calibration]

/-- Settings are within bounds exactly if some document reads as them. -/
theorem withinBounds_iff_read {s : Settings} :
    s.WithinBounds ↔ ∃ fields, ofFields c fields = .ok s := by
  constructor
  · intro h
    obtain ⟨fields, -, hread⟩ := ofFields_toDocument hc h
    exact ⟨fields, hread⟩
  · rintro ⟨fields, h⟩
    exact withinBounds_of_ofFields h

end Keeps

/-- The locale of the environment is under no bound. -/
theorem withinBounds_withEnvironment {s : Settings} (h : s.WithinBounds)
    (envLocale : Option Text) : (s.withEnvironment envLocale).WithinBounds := by
  unfold withEnvironment
  dsimp only
  split
  · exact h
  · exact ⟨h.schemaVersion, h.maxMessageLength, h.calibration⟩

/-- Settings that are loaded are within bounds, whatever their leaves are taken for. -/
theorem withinBounds_of_load {override : Option Document} {envLocale : Option Text} {s : Settings}
    (h : loadBy c override envLocale = .ok s) : s.WithinBounds := by
  unfold loadBy at h
  dsimp only at h
  split at h
  · cases h
  · split at h
    · cases h
    · cases h
      exact withinBounds_withEnvironment (withinBounds_of_ofFields (by assumption)) envLocale

/-! ### The default settings -/

/-- The settings that the default document holds. -/
def default : Settings :=
  { schemaVersion := 1
    locale := "en".toList
    maxMessageLength := 10000
    moneyRadius := 25
    phoneWindow := 5
    calibration := .default }

theorem withinBounds_default : default.WithinBounds where
  schemaVersion := by decide
  maxMessageLength := by decide
  calibration :=
    ⟨by decide +kernel, ⟨by decide +kernel, by decide +kernel⟩,
      ⟨by decide +kernel, by decide +kernel⟩, ⟨by decide +kernel, by decide +kernel⟩,
      by decide +kernel, by decide +kernel⟩

theorem toDocument_default : default.toDocument = .mapping defaultFields := by
  have hname : String.ofList "en".toList = "en" := String.ofList_toList
  rw [toDocument, default, hname]
  rfl

/-- The default settings are read back from the default document by every conversion that keeps
leaves of the right kind. -/
theorem ofFields_defaultFields (hc : c.Keeps) : ofFields c defaultFields = .ok default := by
  obtain ⟨fields, hfields, hread⟩ := ofFields_toDocument hc withinBounds_default
  cases toDocument_default.symm.trans hfields
  exact hread

/-- Without a document of the user the settings are the default ones, in any environment. -/
theorem loadBy_none (hc : c.Keeps) (envLocale : Option Text) :
    loadBy c none envLocale = .ok (default.withEnvironment envLocale) := by
  rw [loadBy, ofFields_defaultFields hc]

theorem load_none (envLocale : Option Text) :
    load none envLocale = .ok (default.withEnvironment envLocale) :=
  loadBy_none Conversion.generous_keeps envLocale

end Settings

end Passcode
