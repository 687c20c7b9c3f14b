import Passcode.Proofs.Document.Merge

/-!
# Paths — what a merged mapping has at the end of a path of keys

A path of keys leads through nested mappings (`Document.at?`).  What a mapping laid over another
one binds to a path is merged with what the lower one has there (`at?_mergeFields_of_some`); where
it binds a proper beginning of the path to what is not a mapping (`Blocks`), nothing is left at the
path (`at?_mergeFields_of_blocks`); and where it does neither, the lower one has its way
(`at?_mergeFields_of_none`).  The three together are the law of merging (`merged_by_paths`).
-/

namespace Passcode

/-- The value that a document binds to a path of keys. -/
def Document.at? (d : Document) : List String → Option Document
  | [] => some d
  | key :: path =>
    match d with
    | .mapping fields => (Fields.get? fields key).bind (fun value => value.at? path)
    | _ => none

namespace Document

/-! ### Paths -/

theorem at?_cons (fields : Fields) (key : String) (path : List String) :
    (mapping fields).at? (key :: path) = (fields.get? key).bind (fun value => value.at? path) := rfl

/-- A path is followed part by part. -/
theorem at?_append (d : Document) (path path' : List String) :
    d.at? (path ++ path') = (d.at? path).bind (fun value => value.at? path') := by
  induction path generalizing d with
  | nil => rfl
  | cons key path ih =>
    cases d with
    | mapping fields =>
      rw [List.cons_append, at?_cons, at?_cons, Option.bind_assoc]
      simp only [ih]
    | _ => rfl

/-- What stands at a path has no key twice if the whole has none. -/
theorem KeyedOnce.of_at? {d value : Document} (h : d.KeyedOnce) {path : List String}
    (hvalue : d.at? path = some value) : value.KeyedOnce := by
  induction path generalizing d with
  | nil =>
    cases hvalue
    exact h
  | cons key path ih =>
    cases d with
    | mapping fields =>
      obtain ⟨w, hw, hrest⟩ := Option.bind_eq_some_iff.mp hvalue
      exact ih (h.of_get? hw) hrest
    | _ => cases hvalue

/-- No path leads on from what is not a mapping. -/
theorem at?_of_not_mapping {d : Document} (h : ∀ fields, d ≠ .mapping fields) {path : List String}
    (hpath : path ≠ []) : d.at? path = none := by
  cases path with
  | nil => exact absurd rfl hpath
  | cons key path =>
    cases d with
    | mapping fields => exact absurd rfl (h fields)
    | _ => rfl

/-- The document binds a proper beginning of the path to what is not a mapping. -/
def Blocks (d : Document) (path : List String) : Prop :=
  ∃ start value, start <+: path ∧ start ≠ path ∧ d.at? start = some value ∧
    ∀ fields, value ≠ .mapping fields

theorem blocks_of_not_mapping {d : Document} (h : ∀ fields, d ≠ .mapping fields)
    {path : List String} (hpath : path ≠ []) : Blocks d path :=
  ⟨[], d, List.nil_prefix, hpath.symm, rfl, h⟩

/-- A mapping blocks a path if what it binds to the first key blocks the rest. -/
theorem blocks_cons_iff {fields : Fields} {key : String} {path : List String} :
    Blocks (.mapping fields) (key :: path) ↔ ∃ d, fields.get? key = some d ∧ Blocks d path := by
  constructor
  · rintro ⟨start, value, hprefix, hne, hstart, hvalue⟩
    rcases List.prefix_cons_iff.mp hprefix with rfl | ⟨start, rfl, hbehind⟩
    · cases hstart
      exact absurd rfl (hvalue fields)
    · obtain ⟨d, hd, hrest⟩ := Option.bind_eq_some_iff.mp hstart
      exact ⟨d, hd, start, value, hbehind, fun heq => hne (by rw [heq]), hrest, hvalue⟩
  · rintro ⟨d, hd, start, value, hprefix, hne, hstart, hvalue⟩
    refine ⟨key :: start, value, List.cons_prefix_cons.mpr ⟨rfl, hprefix⟩, ?_, ?_, hvalue⟩
    · exact fun heq => hne (List.cons.inj heq).2
    · rw [at?_cons, hd, Option.bind_some, hstart]

theorem at?_fieldsOf (place : Option Document) {path : List String} (hpath : path ≠ []) :
    (mapping (fieldsOf place)).at? path = place.bind (fun value => value.at? path) := by
  cases path with
  | nil => exact absurd rfl hpath
  | cons key path =>
    cases place with
    | none => rfl
    | some d => cases d <;> rfl

/-! ### Paths of what is merged -/

section Paths

variable {lower upper : Fields} {path : List String}

/-- **What the upper mapping binds to a path** is merged with what the lower one has there. -/
theorem at?_mergeFields_of_some (hupper : KeyedOnce (.mapping upper)) {value : Document}
    (h : (mapping upper).at? path = some value) :
    (mapping (mergeFields lower upper)).at? path =
      some (mergeValue ((mapping lower).at? path) value) := by
  induction path generalizing lower upper with
  | nil =>
    cases h
    rfl
  | cons key path ih =>
    obtain ⟨w, hw, hvalue⟩ := Option.bind_eq_some_iff.mp h
    rw [at?_cons, at?_cons, get?_mergeFields hupper.fields, hw, Option.bind_some]
    cases path with
    | nil =>
      cases hvalue
      cases lower.get? key <;> rfl
    | cons key' path =>
      -- The path leads on, so there is a mapping.
      cases w with
      | mapping fields =>
        rw [mergeValue_mapping (hupper.of_get? hw).fields, ih (hupper.of_get? hw) hvalue,
          at?_fieldsOf _ (List.cons_ne_nil _ _)]
      | _ => cases hvalue

/-- Behind what is not a mapping, nothing is left of the lower one. -/
theorem at?_mergeFields_of_blocks (hupper : KeyedOnce (.mapping upper))
    (h : Blocks (.mapping upper) path) : (mapping (mergeFields lower upper)).at? path = none := by
  obtain ⟨start, value, ⟨rest, rfl⟩, hne, hstart, hvalue⟩ := h
  have hrest : rest ≠ [] := by
    rintro rfl
    exact hne (List.append_nil start).symm
  rw [at?_append, at?_mergeFields_of_some hupper hstart, mergeValue_of_not_mapping hvalue,
    Option.bind_some, at?_of_not_mapping hvalue hrest]

/-- **Where the upper mapping has nothing to say** the lower one has its way. -/
theorem at?_mergeFields_of_none (hupper : KeyedOnce (.mapping upper))
    (hnone : (mapping upper).at? path = none) (hopen : ¬ Blocks (.mapping upper) path) :
    (mapping (mergeFields lower upper)).at? path = (mapping lower).at? path := by
  induction path generalizing lower upper with
  | nil => cases hnone
  | cons key path ih =>
    rw [at?_cons] at hnone
    rw [at?_cons, at?_cons, get?_mergeFields hupper.fields]
    cases hw : upper.get? key with
    | none => rfl
    | some w =>
      rw [hw, Option.bind_some] at hnone
      have hpath : path ≠ [] := by
        rintro rfl
        cases hnone
      have hinner : ¬ Blocks w path := fun h => hopen (blocks_cons_iff.mpr ⟨w, hw, h⟩)
      cases w with
      | mapping fields =>
        dsimp only
        rw [Option.bind_some, mergeValue_mapping (hupper.of_get? hw).fields,
          ih (hupper.of_get? hw) hnone hinner, at?_fieldsOf _ hpath]
      | _ => exact absurd (blocks_of_not_mapping (by exact nofun) hpath) hinner

end Paths

/-! ### All paths -/

/-- **Merging, path by path.**  At every path of keys, a mapping laid over another one has the
value that the upper one binds to the path, if that is not a mapping; nothing, if the upper one
binds a proper beginning of the path to what is not a mapping; the mapping that the upper one has
there laid over the one that the lower one has there, or over the empty one; and otherwise what the
lower one has.  Laid over it again, the upper mapping changes nothing; the empty mapping changes
nothing on either side, and nor does a mapping laid over itself.  In these the order of the keys is
kept too. -/
theorem merged_by_paths {lower upper : Fields} (hlower : KeyedOnce (.mapping lower))
    (hupper : KeyedOnce (.mapping upper)) :
    (∀ path : List String,
      let below := (mapping lower).at? path
      let above := (mapping upper).at? path
      let merged := (mapping (mergeFields lower upper)).at? path
      (∀ value, (∀ fields, value ≠ .mapping fields) → above = some value → merged = some value) ∧
      (Blocks (.mapping upper) path → merged = none) ∧
      (∀ fields, above = some (.mapping fields) →
        merged = some (.mapping (mergeFields (fieldsOf below) fields))) ∧
      (above = none → ¬ Blocks (.mapping upper) path → merged = below)) ∧
    mergeFields (mergeFields lower upper) upper = mergeFields lower upper ∧
    mergeFields [] upper = upper ∧ mergeFields lower [] = lower ∧
    mergeFields lower lower = lower := by
  refine ⟨fun path => ⟨?_, at?_mergeFields_of_blocks hupper, ?_,
      at?_mergeFields_of_none hupper⟩,
    mergeFields_again hupper lower, nil_mergeFields hupper.fields, mergeFields_nil lower,
    mergeFields_self hlower⟩
  · intro value hvalue habove
    rw [at?_mergeFields_of_some hupper habove, mergeValue_of_not_mapping hvalue]
  · intro fields habove
    have hfields : Fields.KeyedOnce fields := (hupper.of_at? habove).fields
    rw [at?_mergeFields_of_some hupper habove, mergeValue_mapping hfields]

/-- A mapping with a nested mapping, a number and a list. -/
def layeredLower : Fields :=
  [("limits", .mapping [("length", .int 500), ("lines", .int 3)]), ("radius", .int 25),
   ("words", .list [.string "otp"])]

/-- A mapping that reaches into the nested one and replaces a number in it by a mapping, and that
has an empty mapping where there is a number and a number where there is a list. -/
def layeredUpper : Fields :=
  [("limits", .mapping [("length", .mapping [("least", .int 1)])]), ("radius", .mapping []),
   ("words", .int 0)]

theorem keyedOnce_layered :
    KeyedOnce (.mapping layeredLower) ∧ KeyedOnce (.mapping layeredUpper) := by
  constructor
  · refine .mapping (by decide) ?_
    simp only [layeredLower, List.forall_mem_cons]
    refine ⟨.mapping (by decide) ?_, .int 25, .list ?_, nofun⟩
    · simp only [List.forall_mem_cons]
      exact ⟨.int 500, .int 3, nofun⟩
    · exact List.forall_mem_singleton.mpr (.string "otp")
  · refine .mapping (by decide) ?_
    simp only [layeredUpper, List.forall_mem_cons]
    refine ⟨.mapping (by decide) (List.forall_mem_singleton.mpr (.mapping (by decide) ?_)),
      .mapping List.nodup_nil nofun, .int 0, nofun⟩
    exact List.forall_mem_singleton.mpr (.int 1)

theorem merged_by_paths_layered :
    KeyedOnce (.mapping layeredLower) ∧ KeyedOnce (.mapping layeredUpper) ∧
      (mapping (mergeFields layeredLower layeredUpper)).at? ["words"] = some (.int 0) ∧
      (mapping (mergeFields layeredLower layeredUpper)).at? ["words", "radius"] = none ∧
      (mapping (mergeFields layeredLower layeredUpper)).at? ["limits", "length"] =
        some (.mapping [("least", .int 1)]) ∧
      (mapping (mergeFields layeredLower layeredUpper)).at? ["limits", "lines"] = some (.int 3) ∧
      mergeFields (mergeFields layeredLower layeredUpper) layeredUpper =
        mergeFields layeredLower layeredUpper := by
  obtain ⟨hlower, hupper⟩ := keyedOnce_layered
  obtain ⟨hpaths, hagain, -⟩ := merged_by_paths hlower hupper
  have hwords : (mapping layeredUpper).at? ["words"] = some (.int 0) := by rfl
  have hblocks : Blocks (.mapping layeredUpper) ["words", "radius"] :=
    ⟨["words"], .int 0, List.prefix_append ["words"] ["radius"], by decide, hwords, nofun⟩
  have hopen : ¬ Blocks (.mapping layeredUpper) ["limits", "lines"] := by
    intro hblocks
    obtain ⟨limits, hlimits, hblocks⟩ := blocks_cons_iff.mp hblocks
    cases hlimits
    obtain ⟨lines, hlines, -⟩ := blocks_cons_iff.mp hblocks
    cases hlines
  refine ⟨hlower, hupper, (hpaths ["words"]).1 _ nofun hwords,
    (hpaths ["words", "radius"]).2.1 hblocks, ?_, ?_, hagain⟩
  · exact (hpaths ["limits", "length"]).2.2.1 _ rfl
  · exact (hpaths ["limits", "lines"]).2.2.2 rfl hopen

end Document

end Passcode
