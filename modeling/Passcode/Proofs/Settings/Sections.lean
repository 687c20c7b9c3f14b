import Mathlib.Data.List.Nodup
import Passcode.Proofs.Document.Paths
import Passcode.Proofs.Settings.Bounds

/-!
# Sections — one section of the settings, laid over its default

A section of a document may bind some keys, its slots, each to a value of some kind (`Fits`).  When
it is laid over the default section and read, each leaf has the value that is bound to it, whatever
else is bound beside it, and its default value where none is (`Settles`).

A field is settled by itself (`field_leaf_merged`, `field_section_merged`), and a section can be
read exactly if it fits (`readLimits_merged`, `readWindows_merged`, `readCalibration_merged`).
-/

namespace Passcode

/-! ### What may be bound -/

namespace Conversion

variable (c : Conversion)

/-- The leaf is taken for an integer, which is at least as great as it must be. -/
def IsInteger (least : Nat) (d : Document) (n : Nat) : Prop := c.int d = .ok (n : Int) ∧ least ≤ n

/-- The leaf is taken for a name. -/
def IsName (d : Document) (t : Text) : Prop := c.name d = .ok t

/-- The leaf is taken for a number that lies beyond neither 0 nor 1. -/
def IsShare (d : Document) (x : Binary64) : Prop := c.number d = .ok x ∧ x.PassesUnit

/-- The leaf is taken for a number that is not zero or less. -/
def IsScale (d : Document) (x : Binary64) : Prop := c.number d = .ok x ∧ x.le .zero = false

end Conversion

namespace Settings

variable (c : Conversion)

/-- A key that may be bound, and what its value has to be. -/
abbrev Slot := String × (Document → Prop)

/-- No keys but those of the slots, each with a value as it has to be. -/
def Fits (slots : List Slot) (fields : Fields) : Prop :=
  ∀ entry ∈ fields, ∃ slot ∈ slots, slot.1 = entry.1 ∧ slot.2 entry.2

/-- A mapping that fits the slots. -/
def IsSection (slots : List Slot) (d : Document) : Prop :=
  ∃ fields, d = .mapping fields ∧ Fits slots fields

/-- The bound of messages. -/
def limitsSlots : List Slot := [("max_message_length", fun d => ∃ n, c.IsInteger 1 d n)]

/-- The windows of the signals. -/
def windowsSlots : List Slot :=
  [("money_radius", fun d => ∃ n, c.IsInteger 0 d n),
   ("phone_prefix_window", fun d => ∃ n, c.IsInteger 0 d n)]

/-- The settings of the calibration. -/
def calibrationSlots : List Slot :=
  [("score_scale", fun d => ∃ x, c.IsScale d x),
   ("otp_threshold", fun d => ∃ x, c.IsShare d x),
   ("keyword_boost", fun d => ∃ x, c.IsShare d x),
   ("safety_boost", fun d => ∃ x, c.IsShare d x),
   ("parcel_boost", fun d => ∃ x, c.IsShare d x)]

theorem nodup_limitsSlots : ((limitsSlots c).map Prod.fst).Nodup := by simp [limitsSlots]

theorem nodup_windowsSlots : ((windowsSlots c).map Prod.fst).Nodup := by simp [windowsSlots]

theorem nodup_calibrationSlots : ((calibrationSlots c).map Prod.fst).Nodup := by
  simp [calibrationSlots]

/-! ### What is settled -/

/-- A leaf has the value that is bound, or its default where none is. -/
def Settles {α : Type} (reads : Document → α → Prop) (fallback : α) (bound : Option Document)
    (x : α) : Prop :=
  match bound with
  | none => x = fallback
  | some d => reads d x

/-! ### Keys and slots -/

/-- With no key twice, fields fit their slots exactly if each key is that of a slot, and what is
bound to the key of a slot is fit for it. -/
theorem fits_iff {slots : List Slot} {fields : Fields} (hslots : (slots.map Prod.fst).Nodup)
    (hfields : fields.KeyedOnce) :
    Fits slots fields ↔ (∀ key ∈ fields.map Prod.fst, key ∈ slots.map Prod.fst) ∧
      ∀ slot ∈ slots, ∀ value, fields.get? slot.1 = some value → slot.2 value := by
  constructor
  · intro h
    refine ⟨fun key hkey => ?_, fun slot hslot value hvalue => ?_⟩
    · obtain ⟨entry, hentry, rfl⟩ := List.mem_map.mp hkey
      obtain ⟨slot, hslot, hname, -⟩ := h entry hentry
      exact List.mem_map.mpr ⟨slot, hslot, hname⟩
    · obtain ⟨slot', hslot', hname, hholds⟩ := h _ (Fields.mem_of_get? hvalue)
      rw [List.inj_on_of_nodup_map hslots hslot' hslot hname] at hholds
      exact hholds
  · rintro ⟨hkeys, hvalues⟩ entry hentry
    obtain ⟨slot, hslot, hname⟩ := List.mem_map.mp (hkeys _ (List.mem_map.mpr ⟨entry, hentry, rfl⟩))
    exact ⟨slot, hslot, hname,
      hvalues slot hslot _ (hname ▸ Fields.get?_of_mem hfields hentry)⟩

/-- Merged fields are declared if those of the upper mapping are. -/
theorem declared_merged {lower upper : Fields} {declared : List String}
    (h : ∀ key ∈ lower.map Prod.fst, key ∈ declared) :
    (∀ key ∈ (Document.mergeFields lower upper).map Prod.fst, key ∈ declared) ↔
      ∀ key ∈ upper.map Prod.fst, key ∈ declared := by
  constructor
  · exact fun hall key hkey => hall key (Document.mem_keys_mergeFields.mpr (.inr hkey))
  · exact fun hupper key hkey => (Document.mem_keys_mergeFields.mp hkey).elim (h key) (hupper key)

/-! ### One field -/

section Field
open Reading

variable {lower upper : Fields} {path : List String} {key : String}

/-- What is laid over a leaf replaces it. -/
theorem mergeValue_of_leaf {below : Document} (h : ∀ fields, below ≠ .mapping fields)
    (value : Document) : Document.mergeValue (some below) value = value := by
  cases value with
  | mapping upper =>
    cases below with
    | mapping fields => exact absurd rfl (h fields)
    | _ => rfl
  | _ => rfl

/-- A leaf of the merged mapping is settled by the upper one. -/
theorem field_leaf_merged {α : Type} {convert : Document → Except FaultKind α}
    {reads : Document → α → Prop} {below : Document} {fallback x : α} (hupper : upper.KeyedOnce)
    (hlower : lower.get? key = some below) (hleaf : ∀ fields, below ≠ .mapping fields)
    (hfallback : convert below = .ok fallback)
    (hreads : ∀ {d : Document} {x : α}, convert d = .ok x ↔ reads d x) :
    field path (Document.mergeFields lower upper) key (leaf convert) = .ok x ↔
      Settles reads fallback (upper.get? key) x := by
  rw [field_eq_ok_iff, Document.get?_mergeFields hupper, hlower]
  cases upper.get? key with
  | none =>
    constructor
    · rintro ⟨_, hbelow, h⟩
      cases hbelow
      exact (Except.ok.inj (hfallback.symm.trans (leaf_eq_ok_iff.mp h))).symm
    · rintro rfl
      exact ⟨below, rfl, leaf_eq_ok_iff.mpr hfallback⟩
  | some value =>
    simp only [mergeValue_of_leaf hleaf, Option.some.injEq, exists_eq_left', leaf_eq_ok_iff,
      hreads, Settles]

/-- What a mapping binds in a section, nothing where it lacks the section. -/
def partOf (upper : Fields) (key : String) : Option Fields :=
  match upper.get? key with
  | none => some []
  | some (.mapping part) => some part
  | some _ => none

/-- A section of the merged mapping is the section of the lower one with what the upper one binds
in it laid over. -/
theorem field_section_merged {α : Type} {read : List String → Fields → Reading α} {inner : Fields}
    {x : α} (hupper : upper.KeyedOnce) (hlower : lower.get? key = some (.mapping inner)) :
    field path (Document.mergeFields lower upper) key (mapping read) = .ok x ↔
      ∃ part, partOf upper key = some part ∧
        read (path ++ [key]) (Document.mergeFields inner part) = .ok x := by
  rw [field_eq_ok_iff, Document.get?_mergeFields hupper, hlower, partOf]
  cases upper.get? key with
  | none => simp [mapping_eq_ok_iff, Document.mergeFields]
  | some value => cases value <;> simp [mapping_eq_ok_iff, Document.mergeValue]

theorem at?_key (upper : Fields) (key : String) :
    (Document.mapping upper).at? [key] = upper.get? key := by
  rw [Document.at?_cons]
  cases upper.get? key <;> rfl

/-- What a part binds to a name stands at the path of the two keys. -/
theorem at?_of_partOf {part : Fields} (h : partOf upper key = some part) (name : String) :
    (Document.mapping upper).at? [key, name] = part.get? name := by
  rw [partOf] at h
  rw [Document.at?]
  split at h
  · rename_i hnone
    cases h
    rw [hnone]
    rfl
  · rename_i hsome
    cases h
    rw [hsome, Option.bind_some, at?_key]
  · cases h

/-- A part has no key twice if the whole has none. -/
theorem keyedOnce_of_partOf {part : Fields} (hupper : (Document.mapping upper).KeyedOnce)
    (h : partOf upper key = some part) : part.KeyedOnce := by
  rw [partOf] at h
  split at h
  · cases h; exact List.nodup_nil
  · rename_i hsome
    cases h
    exact (hupper.of_get? hsome).fields
  · cases h

/-- The part that a mapping binds in a section fits if its section is one. -/
theorem isSection_iff_partOf {slots : List Slot} :
    (∀ value, upper.get? key = some value → IsSection slots value) ↔
      ∃ part, partOf upper key = some part ∧ Fits slots part := by
  rw [partOf]
  cases upper.get? key with
  | none => simp [Fits]
  | some value => cases value <;> simp [IsSection]

end Field

/-! ### One section -/

section Section
open Reading

variable {c : Conversion} (hc : c.Keeps) {path : List String} {upper : Fields}

/-- A value that is bound is read. -/
theorem exists_of_settles {α : Type} {reads : Document → α → Prop} {fallback x : α}
    {bound : Option Document} (h : Settles reads fallback bound x) {d : Document}
    (hd : bound = some d) : ∃ x, reads d x := by
  subst hd
  exact ⟨x, h⟩

/-- A leaf is settled if what is bound to it, if anything, is read. -/
theorem exists_settles {α : Type} {reads : Document → α → Prop} (fallback : α)
    {bound : Option Document} (h : ∀ d, bound = some d → ∃ x, reads d x) :
    ∃ x, Settles reads fallback bound x := by
  cases bound with
  | none => exact ⟨fallback, rfl⟩
  | some d => exact h d rfl

/-- Where the values are settled, declared keys are all that is left to fit. -/
theorem and_declared_iff (slots : List Slot) {fields : Fields} {settled : Prop}
    (hslots : (slots.map Prod.fst).Nodup) (hfields : fields.KeyedOnce)
    (h : settled → ∀ slot ∈ slots, ∀ value, fields.get? slot.1 = some value → slot.2 value) :
    (settled ∧ ∀ key ∈ fields.map Prod.fst, key ∈ slots.map Prod.fst) ↔
      Fits slots fields ∧ settled := by
  rw [fits_iff hslots hfields]
  exact ⟨fun ⟨hs, hkeys⟩ => ⟨⟨hkeys, h hs⟩, hs⟩, fun ⟨⟨hkeys, _⟩, hs⟩ => ⟨hs, hkeys⟩⟩

include hc

/-- The limits, with those of the user laid over the default ones, are the bound one or the default
one. -/
theorem readLimits_merged {n : Nat} (hupper : upper.KeyedOnce) :
    readLimits c path (Document.mergeFields [("max_message_length", .int 10000)] upper) = .ok n ↔
      Fits (limitsSlots c) upper ∧
        Settles (c.IsInteger 1) default.maxMessageLength (upper.get? "max_message_length") n := by
  have hfallback : c.intAtLeast 1 (.int 10000) = .ok default.maxMessageLength :=
    hc.intAtLeast_int withinBounds_default.maxMessageLength
  rw [readLimits, closed_eq_ok_iff,
    field_leaf_merged hupper rfl (by exact nofun) hfallback Conversion.intAtLeast_eq_ok_iff,
    declared_merged (by simp)]
  refine and_declared_iff (limitsSlots c) (nodup_limitsSlots c) hupper
    fun hs slot hslot value hvalue => ?_
  cases List.mem_singleton.mp hslot
  exact exists_of_settles hs hvalue

/-- The windows, with those of the user laid over the default ones, are the bound ones or the
default ones. -/
theorem readWindows_merged {windows : Nat × Nat} (hupper : upper.KeyedOnce) :
    readWindows c path (Document.mergeFields
        [("money_radius", .int 25), ("phone_prefix_window", .int 5)] upper) = .ok windows ↔
      Fits (windowsSlots c) upper ∧
        Settles (c.IsInteger 0) default.moneyRadius (upper.get? "money_radius") windows.1 ∧
          Settles (c.IsInteger 0) default.phoneWindow (upper.get? "phone_prefix_window")
            windows.2 := by
  have hmoney : c.intAtLeast 0 (.int 25) = .ok default.moneyRadius :=
    hc.intAtLeast_int (Nat.zero_le _)
  have hphone : c.intAtLeast 0 (.int 5) = .ok default.phoneWindow :=
    hc.intAtLeast_int (Nat.zero_le _)
  rw [readWindows_eq_ok_iff,
    field_leaf_merged hupper rfl (by exact nofun) hmoney Conversion.intAtLeast_eq_ok_iff,
    field_leaf_merged hupper rfl (by exact nofun) hphone Conversion.intAtLeast_eq_ok_iff,
    declared_merged (by decide)]
  refine and_declared_iff (windowsSlots c) (nodup_windowsSlots c) hupper
    fun hs slot hslot value hvalue => ?_
  simp only [windowsSlots, List.mem_cons, List.not_mem_nil, or_false] at hslot
  rcases hslot with rfl | rfl
  · exact exists_of_settles hs.1 hvalue
  · exact exists_of_settles hs.2 hvalue

/-- The fields of the default calibration. -/
def calibrationFields : Fields :=
  [("score_scale", .float CalibrationSettings.default.scale),
   ("otp_threshold", .float CalibrationSettings.default.threshold),
   ("keyword_boost", .float CalibrationSettings.default.keywordBoost),
   ("safety_boost", .float CalibrationSettings.default.safetyBoost),
   ("parcel_boost", .float CalibrationSettings.default.parcelBoost)]

/-- The calibration, with that of the user laid over the default one, has the numbers that are
bound and otherwise the default ones. -/
theorem readCalibration_merged {k : CalibrationSettings} (hupper : upper.KeyedOnce) :
    readCalibration c path (Document.mergeFields calibrationFields upper) = .ok k ↔
      Fits (calibrationSlots c) upper ∧
        Settles c.IsScale default.calibration.scale (upper.get? "score_scale") k.scale ∧
          Settles c.IsShare default.calibration.threshold (upper.get? "otp_threshold") k.threshold ∧
            Settles c.IsShare default.calibration.keywordBoost (upper.get? "keyword_boost")
                k.keywordBoost ∧
              Settles c.IsShare default.calibration.safetyBoost (upper.get? "safety_boost")
                  k.safetyBoost ∧
                Settles c.IsShare default.calibration.parcelBoost (upper.get? "parcel_boost")
                  k.parcelBoost := by
  have hdefault := withinBounds_default.calibration
  rw [readCalibration_eq_ok_iff,
    field_leaf_merged hupper rfl (by exact nofun) (hc.above_float hdefault.scale)
      Conversion.above_eq_ok_iff,
    field_leaf_merged hupper rfl (by exact nofun) (hc.between_float hdefault.threshold)
      Conversion.between_eq_ok_iff,
    field_leaf_merged hupper rfl (by exact nofun) (hc.between_float hdefault.keywordBoost)
      Conversion.between_eq_ok_iff,
    field_leaf_merged hupper rfl (by exact nofun) (hc.between_float hdefault.safetyBoost)
      Conversion.between_eq_ok_iff,
    field_leaf_merged hupper rfl (by exact nofun) (hc.between_float hdefault.parcelBoost)
      Conversion.between_eq_ok_iff,
    declared_merged (by decide)]
  refine and_declared_iff (calibrationSlots c) (nodup_calibrationSlots c) hupper
    fun hs slot hslot value hvalue => ?_
  obtain ⟨h₁, h₂, h₃, h₄, h₅⟩ := hs
  simp only [calibrationSlots, List.mem_cons, List.not_mem_nil, or_false] at hslot
  rcases hslot with rfl | rfl | rfl | rfl | rfl
  · exact exists_of_settles h₁ hvalue
  · exact exists_of_settles h₂ hvalue
  · exact exists_of_settles h₃ hvalue
  · exact exists_of_settles h₄ hvalue
  · exact exists_of_settles h₅ hvalue

end Section

end Settings

end Passcode
