import Passcode.Proofs.Settings.Sections

/-!
# Precedence — which source each setting comes from

Settings have three sources: the default document, the document of the user, and the locale of the
environment.  The document of the user is laid over the default one, and the whole is read.

`Acceptable` says of the document of the user alone that it can be read so: it counts as an empty
file, or it is a mapping of declared keys whose leaves convert within their bounds and whose
sections are such mappings again.  Then every leaf that it binds has the value that is bound,
whatever else is bound beside it, every other leaf has its default value, and a locale of the
environment that is not blank stands over both (`Layered`).

The sections together make the settings (`ofFields_merged`), and the environment comes last
(`exists_load_iff`, `layered_of_load`, `load_elsewhere`).
-/

namespace Passcode

namespace Settings

variable (c : Conversion)

/-! ### What is asked for -/

/-- All settings. -/
def slots : List Slot :=
  [("schema_version", fun d => ∃ n, c.IsInteger 1 d n),
   ("locale", fun d => ∃ t, c.IsName d t),
   ("limits", IsSection (limitsSlots c)),
   ("scoring", IsSection (windowsSlots c)),
   ("calibration", IsSection (calibrationSlots c))]

theorem nodup_slots : ((slots c).map Prod.fst).Nodup := by simp [slots]

/-- The document counts as an empty file, or it binds declared keys to what they may be bound to. -/
def Acceptable (d : Document) : Prop := d.isVoid = true ∨ IsSection (slots c) d

/-- The settings that a document and the locale of the environment lay over the default ones. -/
structure Layered (d : Document) (envLocale : Option Text) (s : Settings) : Prop where
  schemaVersion : Settles (c.IsInteger 1) default.schemaVersion (d.at? ["schema_version"])
    s.schemaVersion
  maxMessageLength : Settles (c.IsInteger 1) default.maxMessageLength
    (d.at? ["limits", "max_message_length"]) s.maxMessageLength
  moneyRadius : Settles (c.IsInteger 0) default.moneyRadius (d.at? ["scoring", "money_radius"])
    s.moneyRadius
  phoneWindow : Settles (c.IsInteger 0) default.phoneWindow
    (d.at? ["scoring", "phone_prefix_window"]) s.phoneWindow
  scale : Settles c.IsScale default.calibration.scale (d.at? ["calibration", "score_scale"])
    s.calibration.scale
  threshold : Settles c.IsShare default.calibration.threshold
    (d.at? ["calibration", "otp_threshold"]) s.calibration.threshold
  keywordBoost : Settles c.IsShare default.calibration.keywordBoost
    (d.at? ["calibration", "keyword_boost"]) s.calibration.keywordBoost
  safetyBoost : Settles c.IsShare default.calibration.safetyBoost
    (d.at? ["calibration", "safety_boost"]) s.calibration.safetyBoost
  parcelBoost : Settles c.IsShare default.calibration.parcelBoost
    (d.at? ["calibration", "parcel_boost"]) s.calibration.parcelBoost
  /-- The locale of the environment, without the blanks around it, stands over all others. -/
  locale :
    let above := Text.trim (envLocale.getD [])
    if above.isEmpty then Settles c.IsName default.locale (d.at? ["locale"]) s.locale
    else s.locale = above

/-! ### All sections -/

section All
open Reading

variable {c : Conversion} {upper : Fields} {s : Settings}

/-- What a mapping binds is as it has to be, slot by slot. -/
theorem values_slots :
    (∀ slot ∈ slots c, ∀ value, upper.get? slot.1 = some value → slot.2 value) ↔
      (∀ value, upper.get? "schema_version" = some value → ∃ n, c.IsInteger 1 value n) ∧
      (∀ value, upper.get? "locale" = some value → ∃ t, c.IsName value t) ∧
      (∃ limits, partOf upper "limits" = some limits ∧ Fits (limitsSlots c) limits) ∧
      (∃ windows, partOf upper "scoring" = some windows ∧ Fits (windowsSlots c) windows) ∧
      ∃ calibration, partOf upper "calibration" = some calibration ∧
        Fits (calibrationSlots c) calibration := by
  simp only [slots, List.forall_mem_cons, isSection_iff_partOf, List.not_mem_nil, false_implies,
    implies_true, and_true]

/-- What is settled, section by section. -/
theorem layered_iff_parts {limits windows calibration : Fields}
    (hlimits : partOf upper "limits" = some limits)
    (hwindows : partOf upper "scoring" = some windows)
    (hcalibration : partOf upper "calibration" = some calibration) :
    Layered c (.mapping upper) none s ↔
      Settles (c.IsInteger 1) default.schemaVersion (upper.get? "schema_version") s.schemaVersion ∧
      Settles c.IsName default.locale (upper.get? "locale") s.locale ∧
      Settles (c.IsInteger 1) default.maxMessageLength (limits.get? "max_message_length")
        s.maxMessageLength ∧
      (Settles (c.IsInteger 0) default.moneyRadius (windows.get? "money_radius") s.moneyRadius ∧
        Settles (c.IsInteger 0) default.phoneWindow (windows.get? "phone_prefix_window")
          s.phoneWindow) ∧
      Settles c.IsScale default.calibration.scale (calibration.get? "score_scale")
        s.calibration.scale ∧
      Settles c.IsShare default.calibration.threshold (calibration.get? "otp_threshold")
        s.calibration.threshold ∧
      Settles c.IsShare default.calibration.keywordBoost (calibration.get? "keyword_boost")
        s.calibration.keywordBoost ∧
      Settles c.IsShare default.calibration.safetyBoost (calibration.get? "safety_boost")
        s.calibration.safetyBoost ∧
      Settles c.IsShare default.calibration.parcelBoost (calibration.get? "parcel_boost")
        s.calibration.parcelBoost := by
  simp only [← at?_key upper, ← at?_of_partOf hlimits, ← at?_of_partOf hwindows,
    ← at?_of_partOf hcalibration]
  constructor
  · rintro ⟨hversion, hn, hmoney, hphone, hscale, hthreshold, hkeyword, hsafety, hparcel, hname⟩
    exact ⟨hversion, hname, hn, ⟨hmoney, hphone⟩, hscale, hthreshold, hkeyword, hsafety, hparcel⟩
  · rintro ⟨hversion, hname, hn, ⟨hmoney, hphone⟩, hscale, hthreshold, hkeyword, hsafety, hparcel⟩
    exact ⟨hversion, hn, hmoney, hphone, hscale, hthreshold, hkeyword, hsafety, hparcel, hname⟩

/-- **Reading what is merged**: a mapping over the default document can be read exactly if it fits,
and what is read has every value that is bound and the default where none is. -/
theorem ofFields_merged (hkeeps : c.Keeps) (hupper : (Document.mapping upper).KeyedOnce) :
    ofFields c (Document.mergeFields defaultFields upper) = .ok s ↔
      Fits (slots c) upper ∧ Layered c (.mapping upper) none s := by
  have hkeyed := hupper.fields
  have hpart {key : String} {part : Fields} (h : partOf upper key = some part) :
      part.KeyedOnce := keyedOnce_of_partOf hupper h
  have hversion : c.intAtLeast 1 (.int 1) = .ok default.schemaVersion :=
    hkeeps.intAtLeast_int withinBounds_default.schemaVersion
  have hname : c.name (.string "en") = .ok default.locale := hkeeps.name "en"
  have isName_iff {d : Document} {t : Text} : c.name d = .ok t ↔ c.IsName d t := Iff.rfl
  rw [ofFields_eq_ok_iff,
    field_leaf_merged hkeyed rfl (by exact nofun) hversion Conversion.intAtLeast_eq_ok_iff,
    field_leaf_merged hkeyed rfl (by exact nofun) hname isName_iff,
    field_section_merged hkeyed rfl, field_section_merged hkeyed rfl,
    field_section_merged hkeyed rfl, declared_merged (by decide), fits_iff (nodup_slots c) hkeyed]
  constructor
  · rintro ⟨⟨hversion, hname, ⟨limits, hlimits, hn⟩, ⟨windows, hwindows, hw⟩,
      calibration, hcalibration, hc⟩, hkeys⟩
    obtain ⟨hlimitsFit, hn⟩ := (readLimits_merged hkeeps (hpart hlimits)).mp hn
    obtain ⟨hwindowsFit, hw⟩ := (readWindows_merged hkeeps (hpart hwindows)).mp hw
    obtain ⟨hcalibrationFit, hc⟩ := (readCalibration_merged hkeeps (hpart hcalibration)).mp hc
    exact ⟨⟨hkeys, values_slots.mpr ⟨fun _ => exists_of_settles hversion,
      fun _ => exists_of_settles hname, ⟨limits, hlimits, hlimitsFit⟩,
      ⟨windows, hwindows, hwindowsFit⟩, calibration, hcalibration, hcalibrationFit⟩⟩,
      (layered_iff_parts hlimits hwindows hcalibration).mpr ⟨hversion, hname, hn, hw, hc⟩⟩
  -- Every section of the document is a mapping, so there is a part of it to lay over the default.
  · rintro ⟨⟨hkeys, hvalues⟩, hlayered⟩
    obtain ⟨-, -, ⟨limits, hlimits, hlimitsFit⟩, ⟨windows, hwindows, hwindowsFit⟩,
      calibration, hcalibration, hcalibrationFit⟩ := values_slots.mp hvalues
    obtain ⟨hversion, hname, hn, hw, hc⟩ :=
      (layered_iff_parts hlimits hwindows hcalibration).mp hlayered
    refine ⟨⟨hversion, hname, ⟨limits, hlimits, ?_⟩, ⟨windows, hwindows, ?_⟩,
      calibration, hcalibration, ?_⟩, hkeys⟩
    · exact (readLimits_merged hkeeps (hpart hlimits)).mpr ⟨hlimitsFit, hn⟩
    · exact (readWindows_merged hkeeps (hpart hwindows)).mpr ⟨hwindowsFit, hw⟩
    · exact (readCalibration_merged hkeeps (hpart hcalibration)).mpr ⟨hcalibrationFit, hc⟩

/-- A mapping that fits settles every leaf. -/
theorem exists_layered (hupper : (Document.mapping upper).KeyedOnce) (h : Fits (slots c) upper) :
    ∃ s, Layered c (.mapping upper) none s := by
  have hpart {key : String} {part : Fields} (h : partOf upper key = some part) :
      part.KeyedOnce := keyedOnce_of_partOf hupper h
  obtain ⟨-, hvalues⟩ := (fits_iff (nodup_slots c) hupper.fields).mp h
  obtain ⟨hversion, hname, ⟨limits, hlimits, hlimitsFit⟩, ⟨windows, hwindows, hwindowsFit⟩,
    calibration, hcalibration, hcalibrationFit⟩ := values_slots.mp hvalues
  obtain ⟨-, hn⟩ := (fits_iff (nodup_limitsSlots c) (hpart hlimits)).mp hlimitsFit
  obtain ⟨-, hw⟩ := (fits_iff (nodup_windowsSlots c) (hpart hwindows)).mp hwindowsFit
  obtain ⟨-, hc⟩ := (fits_iff (nodup_calibrationSlots c) (hpart hcalibration)).mp hcalibrationFit
  simp only [limitsSlots, windowsSlots, calibrationSlots, List.forall_mem_cons] at hn hw hc
  obtain ⟨version, hversion⟩ := exists_settles default.schemaVersion hversion
  obtain ⟨name, hname⟩ := exists_settles default.locale hname
  obtain ⟨n, hn⟩ := exists_settles default.maxMessageLength hn.1
  obtain ⟨money, hmoney⟩ := exists_settles default.moneyRadius hw.1
  obtain ⟨phone, hphone⟩ := exists_settles default.phoneWindow hw.2.1
  obtain ⟨scale, hscale⟩ := exists_settles default.calibration.scale hc.1
  obtain ⟨threshold, hthreshold⟩ := exists_settles default.calibration.threshold hc.2.1
  obtain ⟨keyword, hkeyword⟩ := exists_settles default.calibration.keywordBoost hc.2.2.1
  obtain ⟨safety, hsafety⟩ := exists_settles default.calibration.safetyBoost hc.2.2.2.1
  obtain ⟨parcel, hparcel⟩ := exists_settles default.calibration.parcelBoost hc.2.2.2.2.1
  let s : Settings :=
    { schemaVersion := version, locale := name, maxMessageLength := n, moneyRadius := money,
      phoneWindow := phone, calibration := ⟨scale, threshold, keyword, safety, parcel⟩ }
  exact ⟨s, (layered_iff_parts hlimits hwindows hcalibration).mpr
    ⟨hversion, hname, hn, ⟨hmoney, hphone⟩, hscale, hthreshold, hkeyword, hsafety, hparcel⟩⟩

/-- The locale of the environment is laid over all the rest. -/
theorem Layered.withEnvironment {d : Document} (h : Layered c d none s) (envLocale : Option Text) :
    Layered c d envLocale (s.withEnvironment envLocale) := by
  obtain ⟨hversion, hn, hmoney, hphone, hscale, hthreshold, hkeyword, hsafety, hparcel, hname⟩ := h
  rw [Settings.withEnvironment]
  split
  · rename_i hblank
    exact ⟨hversion, hn, hmoney, hphone, hscale, hthreshold, hkeyword, hsafety, hparcel,
      by dsimp only; rw [if_pos hblank]; exact hname⟩
  · rename_i habove
    exact ⟨hversion, hn, hmoney, hphone, hscale, hthreshold, hkeyword, hsafety, hparcel,
      by dsimp only; rw [if_neg habove]⟩

end All

/-! ### All sources -/

variable {c}

/-- A mapping of the user is laid over the default document and read. -/
theorem load_mapping (upper : Fields) (envLocale : Option Text) :
    loadBy c (some (.mapping upper)) envLocale =
      match ofFields c (Document.mergeFields defaultFields upper) with
      | .error faults => .error (.invalid faults)
      | .ok s => .ok (s.withEnvironment envLocale) := by
  cases upper <;> rfl

/-- A document that counts as an empty file binds nothing. -/
theorem load_of_isVoid {d : Document} (h : d.isVoid = true) (envLocale : Option Text) :
    loadBy c (some d) envLocale = loadBy c (some (.mapping [])) envLocale := by
  rw [loadBy, loadBy, Document.orEmpty, if_pos h]
  rfl

theorem at?_of_isVoid {d : Document} (h : d.isVoid = true) (key : String) (path : List String) :
    d.at? (key :: path) = (Document.mapping []).at? (key :: path) := by
  cases d with
  | mapping fields => rw [List.isEmpty_iff.mp h]
  | _ => rfl

/-- What is neither void nor a mapping is no document of settings. -/
theorem load_of_no_mapping {d : Document} (hvoid : d.isVoid = false)
    (hmapping : ∀ fields, d ≠ .mapping fields) (envLocale : Option Text) :
    loadBy c (some d) envLocale = .error (.notMapping ⟨d⟩) := by
  rw [loadBy, Document.orEmpty, hvoid, if_neg Bool.false_ne_true]
  cases d with
  | mapping fields => exact absurd rfl (hmapping fields)
  | _ => rfl

/-- What is layered depends on nothing but what is bound to paths. -/
theorem Layered.of_at? {d d' : Document} {envLocale : Option Text} {s : Settings}
    (h : ∀ key path, d.at? (key :: path) = d'.at? (key :: path))
    (hlayered : Layered c d' envLocale s) : Layered c d envLocale s where
  schemaVersion := by rw [h]; exact hlayered.schemaVersion
  maxMessageLength := by rw [h]; exact hlayered.maxMessageLength
  moneyRadius := by rw [h]; exact hlayered.moneyRadius
  phoneWindow := by rw [h]; exact hlayered.phoneWindow
  scale := by rw [h]; exact hlayered.scale
  threshold := by rw [h]; exact hlayered.threshold
  keywordBoost := by rw [h]; exact hlayered.keywordBoost
  safetyBoost := by rw [h]; exact hlayered.safetyBoost
  parcelBoost := by rw [h]; exact hlayered.parcelBoost
  locale := by rw [h]; exact hlayered.locale

/-- The environment changes no more than the locale. -/
theorem exists_withEnvironment (s : Settings) (envLocale : Option Text) :
    ∃ locale, s.withEnvironment envLocale = { s with locale } := by
  rw [withEnvironment]
  split
  · exact ⟨s.locale, rfl⟩
  · exact ⟨_, rfl⟩

/-- A mapping over the default document, in any environment. -/
theorem load_mapping_layers (hc : c.Keeps) {upper : Fields}
    (hupper : (Document.mapping upper).KeyedOnce) (envLocale : Option Text) :
    ((∃ s, loadBy c (some (.mapping upper)) envLocale = .ok s) ↔ Fits (slots c) upper) ∧
    ∀ s, loadBy c (some (.mapping upper)) envLocale = .ok s →
      Layered c (.mapping upper) envLocale s := by
  cases hread : ofFields c (Document.mergeFields defaultFields upper) with
  | error faults =>
    have hload (s : Settings) : loadBy c (some (.mapping upper)) envLocale ≠ .ok s := by
      rw [load_mapping, hread]
      exact nofun
    refine ⟨⟨fun ⟨s, hs⟩ => absurd hs (hload s), fun hfits => ?_⟩, fun s hs => absurd hs (hload s)⟩
    obtain ⟨s, hlayered⟩ := exists_layered hupper hfits
    cases hread.symm.trans ((ofFields_merged hc hupper).mpr ⟨hfits, hlayered⟩)
  | ok read =>
    obtain ⟨hfits, hlayered⟩ := (ofFields_merged hc hupper).mp hread
    have hload : loadBy c (some (.mapping upper)) envLocale =
        .ok (read.withEnvironment envLocale) := by
      rw [load_mapping, hread]
    refine ⟨⟨fun _ => hfits, fun _ => ⟨_, hload⟩⟩, fun s hs => ?_⟩
    cases hload.symm.trans hs
    exact hlayered.withEnvironment envLocale

section Sources

variable {d : Document} {envLocale : Option Text}

/-- A document that settings are loaded with counts as an empty file, or is a mapping. -/
theorem exists_mapping_of_load {s : Settings} (hvoid : d.isVoid = false)
    (h : loadBy c (some d) envLocale = .ok s) : ∃ upper, d = .mapping upper := by
  by_contra hnone
  rw [load_of_no_mapping hvoid fun upper heq => hnone ⟨upper, heq⟩] at h
  cases h

/-- **When settings are loaded**: exactly if the document of the user is acceptable. -/
theorem exists_load_iff (hc : c.Keeps) (hd : d.KeyedOnce) :
    (∃ s, loadBy c (some d) envLocale = .ok s) ↔ Acceptable c d := by
  cases hvoid : d.isVoid with
  -- A document that counts as an empty file is laid over as the empty mapping is.
  | true =>
    rw [load_of_isVoid hvoid]
    obtain ⟨hiff, -⟩ := load_mapping_layers hc .empty envLocale
    exact ⟨fun _ => .inl hvoid, fun _ => hiff.mpr nofun⟩
  | false =>
    rw [Acceptable, hvoid, or_iff_right Bool.false_ne_true]
    constructor
    · rintro ⟨s, hs⟩
      obtain ⟨upper, rfl⟩ := exists_mapping_of_load hvoid hs
      obtain ⟨hiff, -⟩ := load_mapping_layers hc hd envLocale
      exact ⟨upper, rfl, hiff.mp ⟨s, hs⟩⟩
    · rintro ⟨upper, rfl, hfits⟩
      obtain ⟨hiff, -⟩ := load_mapping_layers hc hd envLocale
      exact hiff.mpr hfits

/-- **What is loaded**: every leaf comes from the source that stands over the others for it. -/
theorem layered_of_load (hc : c.Keeps) (hd : d.KeyedOnce) {s : Settings}
    (h : loadBy c (some d) envLocale = .ok s) : Layered c d envLocale s := by
  cases hvoid : d.isVoid with
  | true =>
    rw [load_of_isVoid hvoid] at h
    obtain ⟨-, hlayers⟩ := load_mapping_layers hc .empty envLocale
    exact (hlayers s h).of_at? (at?_of_isVoid hvoid)
  | false =>
    obtain ⟨upper, rfl⟩ := exists_mapping_of_load hvoid h
    exact (load_mapping_layers hc hd envLocale).2 s h

/-- In another environment the same settings are loaded, but for the locale. -/
theorem load_elsewhere {s : Settings} (h : loadBy c (some d) envLocale = .ok s)
    (other : Option Text) : ∃ locale, loadBy c (some d) other = .ok { s with locale } := by
  unfold loadBy at h ⊢
  dsimp only at h ⊢
  split at h
  · cases h
  · split at h
    · cases h
    · rename_i read _
      cases h
      obtain ⟨here, hhere⟩ := exists_withEnvironment read envLocale
      obtain ⟨there, hthere⟩ := exists_withEnvironment read other
      rw [hhere]
      exact ⟨there, congrArg Except.ok hthere⟩

end Sources

/-- **Precedence**: let a leaf that has the kind that is asked for be left as it is, and whatever
else be taken for anything.  For every document of the user and every environment, settings are
loaded exactly if the document is acceptable, which has nothing to do with the environment.  Then
every leaf that the document binds has the value that it is taken for, every other leaf has its
default value, and the locale is that of the environment without the blanks around it, if there is
more of it than blanks.  In another environment the same settings are loaded, the locale apart. -/
theorem load_layers (hc : c.Keeps) (d : Document) (hd : d.KeyedOnce) (envLocale : Option Text) :
    ((∃ s, loadBy c (some d) envLocale = .ok s) ↔ Acceptable c d) ∧
    ∀ s, loadBy c (some d) envLocale = .ok s →
      Layered c d envLocale s ∧
        ∀ other, ∃ locale, loadBy c (some d) other = .ok { s with locale } :=
  ⟨exists_load_iff hc hd, fun _ hs => ⟨layered_of_load hc hd hs, load_elsewhere hs⟩⟩

/-- A document that binds one leaf of the two windows, no leaf of the calibration, and a locale. -/
def partialDocument : Document :=
  .mapping
    [("locale", .string "zh"), ("scoring", .mapping [("money_radius", .string " 40.0 ")]),
     ("calibration", .mapping [])]

/-- The leaf that is bound is read, its neighbour keeps its default value, and the locale of the
environment stands over the one that is bound. -/
theorem load_layers_partial :
    Conversion.generous.Keeps ∧ partialDocument.KeyedOnce ∧ Acceptable .generous partialDocument ∧
      ∃ s, load (some partialDocument) (some " fr\n".toList) = .ok s ∧
        s.moneyRadius = 40 ∧ s.phoneWindow = 5 ∧ s.calibration.scale = default.calibration.scale ∧
          s.locale = "fr".toList := by
  have hkeyed : partialDocument.KeyedOnce :=
    .mapping (by decide) <| List.forall_mem_cons.mpr ⟨.string _, List.forall_mem_cons.mpr
      ⟨.mapping (by decide) (List.forall_mem_singleton.mpr (.string _)),
        List.forall_mem_singleton.mpr (.mapping List.nodup_nil nofun)⟩⟩
  have hloaded : (load (some partialDocument) (some " fr\n".toList)).toBool = true := by
    decide +kernel
  have hradius : Leaf.int (.string " 40.0 ") = .ok 40 := by decide +kernel
  have habove : Text.trim ((some " fr\n".toList).getD []) = "fr".toList := by decide +kernel
  obtain ⟨hiff, hlayers⟩ :=
    load_layers Conversion.generous_keeps partialDocument hkeyed (some " fr\n".toList)
  cases hload : load (some partialDocument) (some " fr\n".toList) with
  | error fault => rw [hload] at hloaded; cases hloaded
  | ok s =>
    obtain ⟨hlayered, -⟩ := hlayers s hload
    obtain ⟨hmoney, -⟩ : Conversion.generous.IsInteger 0 (.string " 40.0 ") s.moneyRadius :=
      hlayered.moneyRadius
    have hphone : s.phoneWindow = 5 := hlayered.phoneWindow
    have hscale : s.calibration.scale = default.calibration.scale := hlayered.scale
    have hlocale := hlayered.locale
    rw [habove] at hlocale
    have hfr : s.locale = "fr".toList := hlocale
    have hforty := Except.ok.inj (hmoney.symm.trans hradius)
    exact ⟨Conversion.generous_keeps, hkeyed, hiff.mp ⟨s, hload⟩, s, rfl, by omega, hphone, hscale,
      hfr⟩

end Settings

end Passcode
