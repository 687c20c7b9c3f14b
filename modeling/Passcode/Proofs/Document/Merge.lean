import Passcode.Proofs.Document.Keys

/-!
# Merge — what stands under a key of a mapping laid over another

Laying a mapping that has each key once over another one goes key by key (`get?_mergeFields`): under
a key of the upper one stands its value, merged with the lower value if both are mappings, and under
any other key stands what the lower one has.  What is not a mapping comes from the upper one if that
has the key, and else from the lower one (`get?_mergeFields_eq_some_iff`).

Merging keeps the keys in their order.  Fields whose keys are new come behind the others
(`mergeFields_of_apart`), and merging that meets what it would put in place changes nothing
(`mergeFields_of_kept`).  So the empty mapping changes nothing on either side, and nor does laying a
mapping over another one again (`mergeFields_again`) or over itself (`mergeFields_self`).
-/

namespace Passcode.Document

/-- **Merging, key by key.** -/
theorem get?_mergeFields {upper : Fields} (h : upper.KeyedOnce) (lower : Fields) (key : String) :
    (mergeFields lower upper).get? key =
      match upper.get? key with
      | some value => some (mergeValue (lower.get? key) value)
      | none => lower.get? key := by
  induction upper generalizing lower with
  | nil => rfl
  | cons entry rest ih =>
    obtain ⟨k, v⟩ := entry
    obtain ⟨hnot, hrest⟩ := List.nodup_cons.mp h
    rw [mergeFields, ih hrest, Fields.get?_put, Fields.get?]
    by_cases hk : k = key
    -- The key does not come again, so the value that was put under it stays.
    · subst hk
      rw [if_pos rfl, if_pos rfl, Fields.get?_eq_none hnot]
    · rw [if_neg hk, if_neg hk]

/-- The merged mapping has the keys of both. -/
theorem mem_keys_mergeFields {lower upper : Fields} {key : String} :
    key ∈ (mergeFields lower upper).map Prod.fst ↔
      key ∈ lower.map Prod.fst ∨ key ∈ upper.map Prod.fst := by
  induction upper generalizing lower with
  | nil => simp [mergeFields]
  | cons entry rest ih =>
    obtain ⟨k, v⟩ := entry
    have hput : key ∈ (Fields.put lower k (mergeValue (lower.get? k) v)).map Prod.fst ↔
        key ∈ lower.map Prod.fst ∨ key = k := by
      rw [Fields.keys_put]
      split
      · rename_i hk
        exact ⟨.inl, fun h => h.elim id (fun heq => heq ▸ hk)⟩
      · rw [List.mem_append, List.mem_singleton]
    rw [mergeFields, ih, hput, List.map_cons, List.mem_cons, or_assoc]

/-- What is not a mapping is merged from nothing but itself. -/
theorem mergeValue_eq_iff {lower : Option Document} {value x : Document}
    (hx : ∀ fields, x ≠ .mapping fields) : mergeValue lower value = x ↔ value = x := by
  cases value with
  | mapping upper =>
    have hmapping : ∃ fields, mergeValue lower (.mapping upper) = .mapping fields := by
      unfold mergeValue
      split
      · exact ⟨_, rfl⟩
      · exact ⟨_, rfl⟩
    obtain ⟨fields, hfields⟩ := hmapping
    rw [hfields]
    exact ⟨fun h => absurd h.symm (hx fields), fun h => absurd h.symm (hx upper)⟩
  | _ => rw [mergeValue]; exact nofun

/-- **What is not a mapping** stands under a key of the merged mapping if it stands under that key
of the upper one, or of the lower one where the upper one lacks the key. -/
theorem get?_mergeFields_eq_some_iff {lower upper : Fields} (h : upper.KeyedOnce) {key : String}
    {x : Document} (hx : ∀ fields, x ≠ .mapping fields) :
    (mergeFields lower upper).get? key = some x ↔
      (upper.get? key).or (lower.get? key) = some x := by
  rw [get?_mergeFields h]
  cases upper.get? key with
  | none => rfl
  | some value =>
    rw [Option.some_or, Option.some.injEq, Option.some.injEq]
    exact mergeValue_eq_iff hx

/-! ### The empty mapping -/

theorem mergeValue_none (value : Document) : mergeValue none value = value := by
  cases value <;> rfl

theorem mergeValue_of_not_mapping {value : Document} (h : ∀ fields, value ≠ .mapping fields)
    (below : Option Document) : mergeValue below value = value :=
  (mergeValue_eq_iff h).mpr rfl

/-- Fields whose keys are all new come behind the others. -/
theorem mergeFields_of_apart {lower upper : Fields} (hupper : upper.KeyedOnce)
    (hnew : ∀ key ∈ upper.map Prod.fst, key ∉ lower.map Prod.fst) :
    mergeFields lower upper = lower ++ upper := by
  induction upper generalizing lower with
  | nil => rw [mergeFields, List.append_nil]
  | cons entry rest ih =>
    obtain ⟨k, v⟩ := entry
    obtain ⟨hnot, hrest⟩ := List.nodup_cons.mp hupper
    obtain ⟨hk, hkeys⟩ := List.forall_mem_cons.mp hnew
    rw [mergeFields, Fields.get?_eq_none hk, mergeValue_none, Fields.put_of_not_mem hk, ih hrest]
    · rw [List.append_assoc, List.singleton_append]
    · intro key hkey hmem
      rw [List.map_append, List.mem_append, List.map_singleton, List.mem_singleton] at hmem
      rcases hmem with hmem | rfl
      · exact hkeys key hkey hmem
      · exact hnot hkey

theorem nil_mergeFields {upper : Fields} (h : upper.KeyedOnce) : mergeFields [] upper = upper :=
  mergeFields_of_apart h fun _ _ => List.not_mem_nil

theorem mergeFields_nil (lower : Fields) : mergeFields lower [] = lower := by
  rw [mergeFields]

/-- The fields of the mapping that stands in a place, none where there is no mapping. -/
def fieldsOf : Option Document → Fields
  | some (.mapping fields) => fields
  | _ => []

/-- A mapping is merged with the mapping below it, or with the empty one. -/
theorem mergeValue_mapping {upper : Fields} (h : upper.KeyedOnce) (below : Option Document) :
    mergeValue below (.mapping upper) = .mapping (mergeFields (fieldsOf below) upper) := by
  have hempty : Document.mapping upper = .mapping (mergeFields [] upper) :=
    congrArg Document.mapping (nil_mergeFields h).symm
  cases below with
  | none => exact hempty
  | some d =>
    cases d with
    | mapping fields => rfl
    | _ => exact hempty

/-! ### Merging again -/

/-- Merging that meets what it would put in place changes nothing. -/
theorem mergeFields_of_kept {lower upper : Fields}
    (h : ∀ f ∈ upper, ∃ value, lower.get? f.1 = some value ∧ mergeValue (some value) f.2 = value) :
    mergeFields lower upper = lower := by
  induction upper with
  | nil => exact mergeFields_nil lower
  | cons entry rest ih =>
    obtain ⟨⟨value, hvalue, hkept⟩, hrest⟩ := List.forall_mem_cons.mp h
    rw [mergeFields, hvalue, hkept, Fields.put_of_get? hvalue, ih hrest]

/-- A value that was merged already is merged to the same again. -/
theorem mergeValue_again {value : Document} (h : value.KeyedOnce) (below : Option Document) :
    mergeValue (some (mergeValue below value)) value = mergeValue below value := by
  induction h generalizing below with
  | @mapping fields hkeys _ ih =>
    rw [mergeValue_mapping hkeys, mergeValue_mapping hkeys]
    refine congrArg Document.mapping (mergeFields_of_kept fun f hf => ?_)
    refine ⟨mergeValue ((fieldsOf below).get? f.1) f.2, ?_, ih f hf _⟩
    rw [fieldsOf, get?_mergeFields hkeys, Fields.get?_of_mem hkeys hf]
  | _ => rfl

theorem mergeFields_again {upper : Fields} (h : KeyedOnce (.mapping upper)) (lower : Fields) :
    mergeFields (mergeFields lower upper) upper = mergeFields lower upper :=
  Document.mapping.inj (mergeValue_again h (some (.mapping lower)))

/-- A value merged with itself stays as it is. -/
theorem mergeValue_self {value : Document} (h : value.KeyedOnce) :
    mergeValue (some value) value = value := by
  induction h with
  | mapping hkeys _ ih =>
    refine congrArg Document.mapping (mergeFields_of_kept fun f hf => ?_)
    exact ⟨f.2, Fields.get?_of_mem hkeys hf, ih f hf⟩
  | _ => rfl

theorem mergeFields_self {fields : Fields} (h : KeyedOnce (.mapping fields)) :
    mergeFields fields fields = fields :=
  Document.mapping.inj (mergeValue_self h)

end Passcode.Document
