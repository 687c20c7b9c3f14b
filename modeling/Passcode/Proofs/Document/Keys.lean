import Passcode.Document.Reader

/-!
# Keys — a mapping has each key once

A mapping may be given a value for a key again, which replaces the value that it has, and a new key
comes last (`Fields.get?_put`, `Fields.put_of_not_mem`, `Fields.KeyedOnce.put`).  So in a document
that was read from a text each mapping has each key once (`Document.keyedOnce_of_ofText?`).
-/

namespace Passcode

namespace Fields

/-- The mapping has each key once. -/
def KeyedOnce (fields : Fields) : Prop := (fields.map Prod.fst).Nodup

instance (fields : Fields) : Decidable fields.KeyedOnce :=
  inferInstanceAs (Decidable (List.Nodup _))

/-- A field that is put is found under its key, and all others are as before. -/
theorem get?_put (fields : Fields) (key key' : String) (value : Document) :
    (fields.put key value).get? key' = if key = key' then some value else fields.get? key' := by
  induction fields with
  | nil => rfl
  | cons entry rest ih =>
    obtain ⟨k, v⟩ := entry
    by_cases hk : k = key
    · subst hk
      rw [put, if_pos rfl, get?, get?]
      by_cases hkey' : k = key'
      · rw [if_pos hkey', if_pos hkey']
      · rw [if_neg hkey', if_neg hkey', if_neg hkey']
    · rw [put, if_neg hk, get?, ih, get?]
      by_cases hkey' : k = key'
      · subst hkey'
        rw [if_pos rfl, if_pos rfl, if_neg (fun h => hk h.symm)]
      · rw [if_neg hkey', if_neg hkey']

/-- Putting a field keeps the keys in order and adds a new one at the end. -/
theorem keys_put (fields : Fields) (key : String) (value : Document) :
    (fields.put key value).map Prod.fst =
      if key ∈ fields.map Prod.fst then fields.map Prod.fst else fields.map Prod.fst ++ [key] := by
  induction fields with
  | nil => rfl
  | cons entry rest ih =>
    obtain ⟨k, v⟩ := entry
    by_cases hk : k = key
    · rw [put, if_pos hk, if_pos (List.mem_map.mpr ⟨(k, v), List.mem_cons_self, hk⟩)]
      rfl
    · have hmem : key ∈ ((k, v) :: rest).map Prod.fst ↔ key ∈ rest.map Prod.fst :=
        List.mem_cons.trans (or_iff_right (fun h => hk h.symm))
      rw [put, if_neg hk, List.map_cons, ih]
      simp only [hmem]
      split <;> rfl

theorem KeyedOnce.put {fields : Fields} (h : fields.KeyedOnce) (key : String) (value : Document) :
    (fields.put key value).KeyedOnce := by
  rw [KeyedOnce, keys_put]
  split
  · exact h
  · rename_i hnot
    have hone : [key].Nodup := List.nodup_cons.mpr ⟨List.not_mem_nil, List.nodup_nil⟩
    exact List.nodup_append.mpr
      ⟨h, hone, fun a ha b hb heq => hnot (List.mem_singleton.mp hb ▸ heq ▸ ha)⟩

/-- Giving a key the value that it has changes nothing. -/
theorem put_of_get? {fields : Fields} {key : String} {value : Document}
    (h : fields.get? key = some value) : fields.put key value = fields := by
  induction fields with
  | nil => cases h
  | cons entry rest ih =>
    obtain ⟨k, v⟩ := entry
    rw [get?] at h
    rw [put]
    by_cases hk : k = key
    · rw [if_pos hk] at h ⊢
      rw [Option.some.inj h]
    · rw [if_neg hk] at h ⊢
      rw [ih h]

/-- A key that is new comes last. -/
theorem put_of_not_mem {fields : Fields} {key : String} (h : key ∉ fields.map Prod.fst)
    (value : Document) : fields.put key value = fields ++ [(key, value)] := by
  induction fields with
  | nil => rfl
  | cons entry rest ih =>
    obtain ⟨k, v⟩ := entry
    rw [List.map_cons, List.mem_cons, not_or] at h
    rw [put, if_neg fun hk => h.1 hk.symm, ih h.2, List.cons_append]

/-- A field that is there after a put was there before or has the value that was put. -/
theorem mem_put {fields : Fields} {key : String} {value : Document} {f : String × Document}
    (h : f ∈ fields.put key value) : f ∈ fields ∨ f.2 = value := by
  induction fields with
  | nil => exact .inr (congrArg Prod.snd (List.mem_singleton.mp h))
  | cons entry rest ih =>
    obtain ⟨k, v⟩ := entry
    rw [put] at h
    split at h
    · rcases List.mem_cons.mp h with rfl | h
      · exact .inr rfl
      · exact .inl (List.mem_cons_of_mem _ h)
    · rcases List.mem_cons.mp h with rfl | h
      · exact .inl List.mem_cons_self
      · exact (ih h).imp_left (List.mem_cons_of_mem _)

theorem get?_eq_none {fields : Fields} {key : String} (h : key ∉ fields.map Prod.fst) :
    fields.get? key = none := by
  induction fields with
  | nil => rfl
  | cons entry rest ih =>
    obtain ⟨k, v⟩ := entry
    rw [List.map_cons, List.mem_cons, not_or] at h
    rw [get?, if_neg (fun hk => h.1 hk.symm), ih h.2]

theorem mem_of_get? {fields : Fields} {key : String} {value : Document}
    (h : fields.get? key = some value) : (key, value) ∈ fields := by
  induction fields with
  | nil => cases h
  | cons entry rest ih =>
    obtain ⟨k, v⟩ := entry
    rw [get?] at h
    split at h
    · rename_i hk
      rw [← hk, ← Option.some.inj h]
      exact List.mem_cons_self
    · exact List.mem_cons_of_mem _ (ih h)

/-- With no key twice, every field is found under its key. -/
theorem get?_of_mem {fields : Fields} (h : fields.KeyedOnce) {key : String} {value : Document}
    (hmem : (key, value) ∈ fields) : fields.get? key = some value := by
  induction fields with
  | nil => cases hmem
  | cons entry rest ih =>
    obtain ⟨k, v⟩ := entry
    obtain ⟨hnot, hrest⟩ := List.nodup_cons.mp h
    rw [get?]
    rcases List.mem_cons.mp hmem with heq | hmem
    · cases heq
      exact if_pos rfl
    · rw [if_neg, ih hrest hmem]
      rintro rfl
      exact hnot (List.mem_map.mpr ⟨_, hmem, rfl⟩)

end Fields

namespace Document

/-- Each mapping in the document has each key once. -/
inductive KeyedOnce : Document → Prop where
  | null : KeyedOnce .null
  | bool (value : Bool) : KeyedOnce (.bool value)
  | int (value : Int) : KeyedOnce (.int value)
  | float (value : Binary64) : KeyedOnce (.float value)
  | string (value : String) : KeyedOnce (.string value)
  | list {items : List Document} (h : ∀ d ∈ items, KeyedOnce d) : KeyedOnce (.list items)
  | mapping {fields : Fields} (hkeys : fields.KeyedOnce) (h : ∀ f ∈ fields, KeyedOnce f.2) :
    KeyedOnce (.mapping fields)

theorem KeyedOnce.fields {fields : Fields} (h : KeyedOnce (.mapping fields)) :
    fields.KeyedOnce := by
  cases h with
  | mapping hkeys _ => exact hkeys

theorem KeyedOnce.of_get? {fields : Fields} (h : KeyedOnce (.mapping fields)) {key : String}
    {value : Document} (hvalue : fields.get? key = some value) : value.KeyedOnce := by
  cases h with
  | mapping _ h => exact h _ (Fields.mem_of_get? hvalue)

theorem KeyedOnce.empty : KeyedOnce (.mapping []) := .mapping List.nodup_nil nofun

/-- Putting a field brings no key in twice. -/
theorem KeyedOnce.put {fields : Fields} (h : KeyedOnce (.mapping fields)) {value : Document}
    (hvalue : value.KeyedOnce) (key : String) : KeyedOnce (.mapping (fields.put key value)) := by
  cases h with
  | mapping hkeys hvalues =>
    refine .mapping (hkeys.put key value) fun f hf => ?_
    rcases Fields.mem_put hf with hf | hf
    · exact hvalues f hf
    · rw [hf]; exact hvalue

/-! ### Documents that are read -/

/-- A word of the notation is no mapping. -/
theorem keyedOnce_of_readWord {t : Text} {r : Document × Text} (h : readWord t = some r) :
    r.1.KeyedOnce := by
  obtain ⟨w, hw, hr⟩ := List.exists_of_findSome?_eq_some h
  obtain ⟨rest, -, rfl⟩ := Option.map_eq_some_iff.mp hr
  simp only [words, List.mem_cons, List.not_mem_nil, or_false] at hw
  rcases hw with rfl | rfl | rfl | rfl | rfl | rfl
  · exact .null
  · exact .bool _
  · exact .bool _
  · exact .float _
  · exact .float _
  · exact .float _

/-- A number is no mapping. -/
theorem keyedOnce_of_readMagnitude {negative : Bool} {t : Text} {r : Document × Text}
    (h : readMagnitude negative t = some r) : r.1.KeyedOnce := by
  unfold readMagnitude at h
  dsimp only at h
  -- A leading zero is all digits of its number, and other digits are taken as far as they go.
  split at h <;> split at h
  · cases h
  · split at h
    · cases h; exact .int _
    · cases h; exact .float _
  · cases h
  · split at h
    · cases h; exact .int _
    · cases h; exact .float _

/-- With so much fuel the readers of values, items and fields keep to it that each key comes
once. -/
structure ReadsKeyedOnce (fuel : Nat) : Prop where
  value {t : Text} {r : Document × Text} (h : readValue fuel t = some r) : r.1.KeyedOnce
  items {done : List Document} {t : Text} {r : List Document × Text}
    (hdone : ∀ d ∈ done, KeyedOnce d) (h : readItems fuel done t = some r) :
    ∀ d ∈ r.1, d.KeyedOnce
  fields {done : Fields} {t : Text} {r : Fields × Text} (hdone : KeyedOnce (.mapping done))
    (h : readFields fuel done t = some r) : KeyedOnce (.mapping r.1)

namespace ReadsKeyedOnce

variable {fuel : Nat} (ih : ReadsKeyedOnce fuel)

include ih

/-- A value is a string, a list, a mapping, a word or a number. -/
theorem value_succ {t : Text} {r : Document × Text} (h : readValue (fuel + 1) t = some r) :
    r.1.KeyedOnce := by
  rw [readValue] at h
  split at h
  · obtain ⟨s, -, rfl⟩ := Option.map_eq_some_iff.mp h
    exact .string _
  · split at h
    · cases h; exact .list nofun
    · obtain ⟨s, hs, rfl⟩ := Option.map_eq_some_iff.mp h
      exact .list (ih.items (List.forall_mem_nil _) hs)
  · split at h
    · cases h; exact .empty
    · obtain ⟨s, hs, rfl⟩ := Option.map_eq_some_iff.mp h
      exact ih.fields .empty hs
  · split at h
    · rename_i hword
      cases h
      exact keyedOnce_of_readWord hword
    · split at h
      · exact keyedOnce_of_readMagnitude h
      · exact keyedOnce_of_readMagnitude h

/-- An item that is read joins those before it. -/
theorem items_succ {done : List Document} {t : Text} {r : List Document × Text}
    (hdone : ∀ d ∈ done, KeyedOnce d) (h : readItems (fuel + 1) done t = some r) :
    ∀ d ∈ r.1, d.KeyedOnce := by
  rw [readItems] at h
  split at h
  · cases h
  · rename_i d rest hd
    have hall : ∀ e ∈ d :: done, KeyedOnce e := List.forall_mem_cons.mpr ⟨ih.value hd, hdone⟩
    split at h
    · exact ih.items hall h
    · cases h
      exact fun e he => hall e (List.mem_reverse.mp he)
    · cases h

/-- A field that is read is put among those before it. -/
theorem fields_succ {done : Fields} {t : Text} {r : Fields × Text}
    (hdone : KeyedOnce (.mapping done)) (h : readFields (fuel + 1) done t = some r) :
    KeyedOnce (.mapping r.1) := by
  rw [readFields] at h
  split at h
  · split at h
    · cases h
    · split at h
      · split at h
        · cases h
        · rename_i value rest hd
          have hput := hdone.put (ih.value hd)
          split at h
          · exact ih.fields (hput _) h
          · cases h; exact hput _
          · cases h
      · cases h
  · cases h

end ReadsKeyedOnce

/-- The readers keep to it that each key comes once, with whatever fuel. -/
theorem readsKeyedOnce (fuel : Nat) : ReadsKeyedOnce fuel := by
  induction fuel with
  | zero => exact ⟨nofun, fun _ => nofun, fun _ => nofun⟩
  | succ fuel ih => exact ⟨ih.value_succ, ih.items_succ, ih.fields_succ⟩

/-- In a document that was read from a text each mapping has each key once. -/
theorem keyedOnce_of_ofText? {t : Text} {d : Document} (h : ofText? t = some d) :
    d.KeyedOnce := by
  unfold ofText? at h
  split at h
  · rename_i d' rest hread
    split at h
    · cases h; exact (readsKeyedOnce _).value hread
    · cases h
  · cases h

end Document

end Passcode
