import Passcode.Keyword.Occurrence
import Passcode.Proofs.Text.Selection

/-!
# Nearest — the keyword centres, and how far the nearest one is

* `mem_keywordCentres`, `keywordCentres_pairwise`: the centres of all keywords, ascending.
* `exists_centre`, `lt_length_of_mem_keywordCentres`: where a keyword stands in the text there is a
  centre, and all centres lie within the text.
* `distanceToNearest_le`, `exists_of_distanceToNearest`: in an ascending list the distance to the
  nearest of the two neighbours of an index is the least of all distances.  What lies below the
  index lies below the last such centre, and what does not lies behind the first that does not.
* `distanceToNearest_of_subset`: so more centres are no further away.
-/

namespace Passcode

/-! ### Centres -/

theorem mem_keywordCentres {lower : Text} {keywords : List Text} {c : Nat} :
    c ∈ keywordCentres lower keywords ↔ ∃ k ∈ keywords, k ≠ [] ∧ c ∈ centresOf lower k := by
  rw [keywordCentres, List.mem_mergeSort, List.mem_flatMap]
  refine exists_congr fun k => ?_
  rw [List.mem_filter, Bool.not_eq_true', List.isEmpty_eq_false_iff, and_assoc]

theorem keywordCentres_pairwise (lower : Text) (keywords : List Text) :
    (keywordCentres lower keywords).Pairwise (· ≤ ·) := by
  have htrans : ∀ a b c : Nat, decide (a ≤ b) = true → decide (b ≤ c) = true →
      decide (a ≤ c) = true :=
    fun a b c hab hbc =>
      decide_eq_true (Nat.le_trans (of_decide_eq_true hab) (of_decide_eq_true hbc))
  have htotal : ∀ a b : Nat, (decide (a ≤ b) || decide (b ≤ a)) = true :=
    fun a b => by simpa using Nat.le_total a b
  exact (List.pairwise_mergeSort htrans htotal _).imp of_decide_eq_true

theorem keywordCentres_subset {lower : Text} {keywords keywords' : List Text}
    (h : keywords ⊆ keywords') :
    keywordCentres lower keywords ⊆ keywordCentres lower keywords' := by
  intro c hc
  obtain ⟨k, hk, hne, hmem⟩ := mem_keywordCentres.mp hc
  exact mem_keywordCentres.mpr ⟨k, h hk, hne, hmem⟩

theorem mem_centresOf {lower k : Text} {c : Nat} :
    c ∈ centresOf lower k ↔ ∃ i ∈ Text.selectFrom k 0 0 lower, c = i + k.length / 2 := by
  rw [centresOf, List.mem_map]
  simp only [eq_comm]

/-- The middle of an occurrence lies within the text. -/
theorem lt_length_of_mem_keywordCentres {lower : Text} {keywords : List Text} {c : Nat}
    (h : c ∈ keywordCentres lower keywords) : c < lower.length := by
  obtain ⟨k, -, hne, hc⟩ := mem_keywordCentres.mp h
  obtain ⟨i, hi, rfl⟩ := mem_centresOf.mp hc
  have hstop := ((Text.selects_selectFrom hne).stands i hi).stop_le
  have hpos := List.length_pos_iff.mpr hne
  omega

/-- Where a keyword stands in the text there is a centre of the text. -/
theorem exists_centre {lower k : Text} {keywords : List Text} (hk : k ∈ keywords) (hne : k ≠ [])
    (h : k <:+: lower) : ∃ c ∈ keywordCentres lower keywords, c ≤ lower.length := by
  obtain ⟨i, hi⟩ := Text.exists_standsAt_iff.mpr h
  obtain ⟨j, hj, -⟩ := (Text.selects_selectFrom hne).covers i hi
  have hcentre : j + k.length / 2 ∈ keywordCentres lower keywords :=
    mem_keywordCentres.mpr ⟨k, hk, hne, mem_centresOf.mpr ⟨j, hj, rfl⟩⟩
  exact ⟨_, hcentre, Nat.le_of_lt (lt_length_of_mem_keywordCentres hcentre)⟩

/-! ### The nearest centre -/

section Nearest

variable {index : Int} {centres : List Int}

/-- The last entry of an ascending list is its greatest. -/
theorem exists_getLast_ge {centres : List Int} (h : centres.Pairwise (· ≤ ·)) {c : Int}
    (hc : c ∈ centres) : ∃ l, centres.getLast? = some l ∧ c ≤ l := by
  obtain ⟨before, behind, rfl⟩ := List.append_of_mem hc
  cases hlast : behind.getLast? with
  | none =>
    obtain rfl := List.getLast?_eq_none_iff.mp hlast
    exact ⟨c, by rw [List.getLast?_concat], Int.le_refl c⟩
  | some l =>
    refine ⟨l, by rw [List.getLast?_append, List.getLast?_cons, hlast]; rfl, ?_⟩
    have hbehind := (List.pairwise_append.mp h).2.1
    exact (List.pairwise_cons.mp hbehind).1 l (List.mem_of_getLast? hlast)

/-- The first entry of an ascending list is its least. -/
theorem exists_head_le {centres : List Int} (h : centres.Pairwise (· ≤ ·)) {c : Int}
    (hc : c ∈ centres) : ∃ a, centres.head? = some a ∧ a ≤ c := by
  cases centres with
  | nil => cases hc
  | cons a rest =>
    rcases List.mem_cons.mp hc with rfl | hc
    · exact ⟨c, rfl, Int.le_refl c⟩
    · exact ⟨a, rfl, (List.pairwise_cons.mp h).1 c hc⟩

/-- What stands in an ascending list behind the entries below an index is not below it. -/
theorem le_of_mem_dropWhile (hsorted : centres.Pairwise (· ≤ ·)) {c : Int}
    (hc : c ∈ centres.dropWhile (· < index)) : index ≤ c := by
  obtain ⟨a, ha, hle⟩ := exists_head_le (hsorted.sublist (List.dropWhile_sublist _)) hc
  have hnot := List.head?_dropWhile_not (fun c : Int => decide (c < index)) centres
  rw [ha] at hnot
  have hge : index ≤ a := by simpa using hnot
  exact Int.le_trans hge hle

/-- The two neighbours of the index decide the distance. -/
theorem distanceToNearest_eq (index : Int) (centres : List Int) :
    distanceToNearest index centres =
      match (centres.takeWhile (· < index)).getLast?, (centres.dropWhile (· < index)).head? with
      | none, none => none
      | some b, none => some (index - b).natAbs
      | none, some a => some (index - a).natAbs
      | some b, some a => some (min (index - b).natAbs (index - a).natAbs) := rfl

/-- The distance to the nearest centre is the distance to one of them. -/
theorem exists_of_distanceToNearest {d : Nat} (h : distanceToNearest index centres = some d) :
    ∃ c ∈ centres, d = (index - c).natAbs := by
  have below : ∀ {b}, (centres.takeWhile (· < index)).getLast? = some b → b ∈ centres :=
    fun hb => (List.takeWhile_sublist _).mem (List.mem_of_getLast? hb)
  have above : ∀ {a}, (centres.dropWhile (· < index)).head? = some a → a ∈ centres :=
    fun ha => (List.dropWhile_sublist _).mem (List.mem_of_head? ha)
  rw [distanceToNearest_eq] at h
  split at h
  · cases h
  · rename_i b hb _
    exact ⟨b, below hb, (Option.some.inj h).symm⟩
  · rename_i a _ ha
    exact ⟨a, above ha, (Option.some.inj h).symm⟩
  · rename_i b a hb ha
    obtain rfl := Option.some.inj h
    rcases Nat.le_total (index - b).natAbs (index - a).natAbs with hle | hle
    · exact ⟨b, below hb, Nat.min_eq_left hle⟩
    · exact ⟨a, above ha, Nat.min_eq_right hle⟩

/-- **The nearest of two is the nearest of all**: no centre of an ascending list is nearer. -/
theorem distanceToNearest_le (hsorted : centres.Pairwise (· ≤ ·)) {c : Int} (hc : c ∈ centres) :
    ∃ d, distanceToNearest index centres = some d ∧ d ≤ (index - c).natAbs := by
  have hsplit : centres.takeWhile (· < index) ++ centres.dropWhile (· < index) = centres :=
    List.takeWhile_append_dropWhile
  obtain ⟨hbelow, habove, -⟩ := List.pairwise_append.mp (hsplit.symm ▸ hsorted)
  rw [distanceToNearest_eq]
  rcases List.mem_append.mp (hsplit.symm ▸ hc) with hc | hc
  · obtain ⟨b, hb, hle⟩ := exists_getLast_ge hbelow hc
    have hlt : b < index :=
      of_decide_eq_true (List.all_eq_true.mp List.all_takeWhile b (List.mem_of_getLast? hb))
    rw [hb]
    cases (centres.dropWhile (· < index)).head? with
    | none => exact ⟨_, rfl, by omega⟩
    | some a => exact ⟨_, rfl, by omega⟩
  · obtain ⟨a, ha, hle⟩ := exists_head_le habove hc
    have hge : index ≤ a := le_of_mem_dropWhile hsorted (List.mem_of_head? ha)
    rw [ha]
    cases (centres.takeWhile (· < index)).getLast? with
    | none => exact ⟨_, rfl, by omega⟩
    | some b => exact ⟨_, rfl, by omega⟩

/-- Where there are more centres the nearest one is no further away. -/
theorem distanceToNearest_of_subset {centres' : List Int} (hsorted : centres'.Pairwise (· ≤ ·))
    (hsub : centres ⊆ centres') {d : Nat} (h : distanceToNearest index centres = some d) :
    ∃ d', distanceToNearest index centres' = some d' ∧ d' ≤ d := by
  obtain ⟨c, hc, rfl⟩ := exists_of_distanceToNearest h
  exact distanceToNearest_le hsorted (hsub hc)

end Nearest

end Passcode
