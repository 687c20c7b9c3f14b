import Passcode.Line.Basic
import Passcode.Proofs.Message.Limit

/-!
# Assigned values — the table and the search read one pattern

A value stands assigned in a line if a marker, any number of blanks and the value stand in it one
behind the other (`Line.StandsAssigned`).  The search says just this (`Line.assigns_iff`).

The table is made from the markers that one search from the left finds, which goes on behind the
blanks of each.  It overlooks none: neither the second letter of "is" nor a blank starts a marker
(`Line.behindMarkersFrom_cons`).  So what stands behind a marker and all of its blanks is in the
table with each of its beginnings, up to the greatest length (`Line.mem_assignedTable_iff`).

A value that starts with no blank stands behind all blanks of its marker or not at all.  For such
values the table and the search therefore agree (`LineFacts.assigns_iff_standsAssigned`).
-/

namespace Passcode

open Text

namespace Line

/-! ### The pattern -/

/-- What a value may stand behind to be assigned. -/
def markers : List Text := [":".toList, "=".toList, "is".toList]

/-- A marker, any number of blanks and the value stand in the line, one behind the other. -/
def StandsAssigned (value line : Text) : Prop :=
  ∃ before marker blanks behind : Text, marker ∈ markers ∧ (∀ c ∈ blanks, isBlank c = true) ∧
    line = before ++ marker ++ blanks ++ value ++ behind

variable {c : Char} {cs rest t u value : Text}

theorem ne_nil_of_mem_markers : ∀ marker ∈ markers, marker ≠ [] := by decide

/-- What stands behind a marker is found exactly if the text starts with one. -/
theorem behindMarker?_eq_some_iff :
    behindMarker? t = some rest ↔ ∃ marker ∈ markers, t = marker ++ rest := by
  have hmarkers : markers = [[':'], ['='], ['i', 's']] := rfl
  simp only [hmarkers, List.mem_cons, List.not_mem_nil, or_false, exists_eq_or_imp, exists_eq_left,
    List.cons_append, List.nil_append]
  constructor
  · intro h
    unfold behindMarker? at h
    split at h <;> cases h
    · exact .inl rfl
    · exact .inr (.inl rfl)
    · exact .inr (.inr rfl)
  · rintro (rfl | rfl | rfl) <;> rfl

/-! ### The search -/

/-- A value starts behind blanks if there are only blanks before it. -/
theorem startsBehindBlanks_iff : startsBehindBlanks value t = true ↔
    ∃ blanks behind : Text, (∀ c ∈ blanks, isBlank c = true) ∧ t = blanks ++ value ++ behind := by
  induction t with
  | nil =>
    rw [startsBehindBlanks, List.isEmpty_iff]
    constructor
    · rintro rfl
      exact ⟨[], [], nofun, rfl⟩
    · rintro ⟨blanks, behind, -, h⟩
      exact (List.append_eq_nil_iff.mp (List.append_eq_nil_iff.mp h.symm).1).2
  | cons c cs ih =>
    rw [startsBehindBlanks, Bool.or_eq_true, Bool.and_eq_true, ih, List.isPrefixOf_iff_prefix]
    constructor
    · rintro (⟨behind, h⟩ | ⟨hc, blanks, behind, hblanks, rfl⟩)
      · exact ⟨[], behind, nofun, h.symm⟩
      · exact ⟨c :: blanks, behind, List.forall_mem_cons.mpr ⟨hc, hblanks⟩, rfl⟩
    · rintro ⟨blanks, behind, hblanks, h⟩
      cases blanks with
      | nil => exact .inl ⟨behind, h.symm⟩
      | cons b bs =>
        cases h
        obtain ⟨hc, hbs⟩ := List.forall_mem_cons.mp hblanks
        exact .inr ⟨hc, bs, behind, hbs, rfl⟩

/-- A value stands assigned in a line right at its start, or in the line behind the first
character. -/
theorem standsAssigned_cons : StandsAssigned value (c :: cs) ↔
    (∃ rest, behindMarker? (c :: cs) = some rest ∧ startsBehindBlanks value rest = true) ∨
      StandsAssigned value cs := by
  simp only [behindMarker?_eq_some_iff, startsBehindBlanks_iff]
  constructor
  · rintro ⟨before, marker, blanks, behind, hmarker, hblanks, h⟩
    cases before with
    | nil =>
      exact .inl ⟨_,
        ⟨marker, hmarker, by rw [h]; simp only [List.nil_append, List.append_assoc]; rfl⟩,
        blanks, behind, hblanks, by rw [List.append_assoc]⟩
    | cons b bs =>
      cases h
      exact .inr ⟨bs, marker, blanks, behind, hmarker, hblanks, rfl⟩
  · rintro (⟨_, ⟨marker, hmarker, h⟩, blanks, behind, hblanks, rfl⟩ |
      ⟨before, marker, blanks, behind, hmarker, hblanks, rfl⟩)
    · exact ⟨[], marker, blanks, behind, hmarker, hblanks, by
        rw [h, List.nil_append, List.append_assoc, List.append_assoc, List.append_assoc]⟩
    · exact ⟨c :: before, marker, blanks, behind, hmarker, hblanks, rfl⟩

theorem not_standsAssigned_nil : ¬ StandsAssigned value [] := by
  rintro ⟨before, marker, blanks, behind, hmarker, -, h⟩
  simp only [List.nil_eq, List.append_eq_nil_iff] at h
  exact ne_nil_of_mem_markers marker hmarker h.1.1.1.2

/-- **The search says what stands assigned**, for every value. -/
theorem assigns_iff {line : Text} : assigns value line = true ↔ StandsAssigned value line := by
  induction line with
  | nil => exact iff_of_false Bool.false_ne_true not_standsAssigned_nil
  | cons c cs ih =>
    rw [standsAssigned_cons, assigns, Bool.or_eq_true, ih]
    refine or_congr_left ?_
    cases behindMarker? (c :: cs) <;> simp

/-! ### The markers that a search from the left finds -/

/-- The character is none of those that markers start with. -/
def startsNoMarker (c : Char) : Bool := c != ':' && c != '=' && c != 'i'

/-- No marker starts with a character that starts none. -/
theorem behindMarker?_of_startsNoMarker (h : startsNoMarker c = true) (cs : Text) :
    behindMarker? (c :: cs) = none := by
  simp only [startsNoMarker, Bool.and_eq_true, bne_iff_ne] at h
  obtain ⟨⟨hcolon, hequals⟩, hi⟩ := h
  unfold behindMarker?
  split
  · rename_i heq; cases heq; exact absurd rfl hcolon
  · rename_i heq; cases heq; exact absurd rfl hequals
  · rename_i heq; cases heq; exact absurd rfl hi
  · rfl

theorem startsNoMarker_of_isBlank (h : isBlank c = true) : startsNoMarker c = true := by
  simp only [startsNoMarker, Bool.and_eq_true, bne_iff_ne]
  refine ⟨⟨?_, ?_⟩, ?_⟩ <;> rintro rfl <;> exact absurd h (by decide)

/-- Within a marker no other one starts. -/
theorem all_startsNoMarker_tail : ∀ marker ∈ markers, marker.tail.all startsNoMarker = true := by
  decide

/-- Characters that are to be skipped are dropped. -/
theorem behindMarkersFrom_skip (skip : Nat) (t : Text) :
    behindMarkersFrom skip t = behindMarkersFrom 0 (t.drop skip) := by
  induction t generalizing skip with
  | nil => rw [List.drop_nil]; cases skip <;> rfl
  | cons c cs ih =>
    cases skip with
    | zero => rfl
    | succ skip => rw [behindMarkersFrom, ih, List.drop_succ_cons]

theorem behindMarkersFrom_of_none (h : behindMarker? (c :: cs) = none) :
    behindMarkersFrom 0 (c :: cs) = behindMarkersFrom 0 cs := by
  rw [behindMarkersFrom, h]

/-- No marker is found in what no marker starts with. -/
theorem behindMarkersFrom_append {s : Text} (h : ∀ c ∈ s, startsNoMarker c = true) (t : Text) :
    behindMarkersFrom 0 (s ++ t) = behindMarkersFrom 0 t := by
  induction s with
  | nil => rfl
  | cons c cs ih =>
    obtain ⟨hc, hcs⟩ := List.forall_mem_cons.mp h
    rw [List.cons_append, behindMarkersFrom_of_none (behindMarker?_of_startsNoMarker hc _), ih hcs]

/-- **Going on behind the blanks of a marker overlooks no other one.** -/
theorem behindMarkersFrom_cons (h : behindMarker? (c :: cs) = some rest) :
    behindMarkersFrom 0 (c :: cs) = trimStart rest :: behindMarkersFrom 0 cs := by
  obtain ⟨marker, hmarker, heq⟩ := behindMarker?_eq_some_iff.mp h
  -- Behind the first character the marker ends, and then come its blanks.
  obtain ⟨passed, hpassed, hcs⟩ : ∃ passed : Text,
      (∀ c ∈ passed, startsNoMarker c = true) ∧ cs = passed ++ trimStart rest := by
    refine ⟨marker.tail ++ rest.takeWhile isBlank, fun c hc => ?_, ?_⟩
    · rcases List.mem_append.mp hc with hc | hc
      · exact List.all_eq_true.mp (all_startsNoMarker_tail marker hmarker) c hc
      · exact startsNoMarker_of_isBlank (List.all_eq_true.mp List.all_takeWhile c hc)
    · rw [List.append_assoc, trimStart, List.takeWhile_append_dropWhile,
        ← List.tail_append_of_ne_nil (ne_nil_of_mem_markers marker hmarker), ← heq, List.tail_cons]
  have hskip : cs.length - (trimStart rest).length = passed.length := by
    rw [hcs, List.length_append, Nat.add_sub_cancel]
  rw [behindMarkersFrom, h]
  dsimp only
  rw [hskip, behindMarkersFrom_skip, hcs, List.drop_left, behindMarkersFrom_append hpassed]

/-- What the search finds is what stands behind the markers of the line and their blanks. -/
theorem mem_behindMarkersFrom_iff : u ∈ behindMarkersFrom 0 t ↔
    ∃ before marker rest : Text, marker ∈ markers ∧ t = before ++ (marker ++ rest) ∧
      u = trimStart rest := by
  induction t with
  | nil =>
    refine iff_of_false List.not_mem_nil ?_
    rintro ⟨before, marker, rest, hmarker, h, -⟩
    simp only [List.nil_eq, List.append_eq_nil_iff] at h
    exact ne_nil_of_mem_markers marker hmarker h.2.1
  | cons c cs ih =>
    have hmem : u ∈ behindMarkersFrom 0 (c :: cs) ↔
        (∃ rest, behindMarker? (c :: cs) = some rest ∧ u = trimStart rest) ∨
          u ∈ behindMarkersFrom 0 cs := by
      cases h : behindMarker? (c :: cs) with
      | none => rw [behindMarkersFrom_of_none h]; simp
      | some rest => rw [behindMarkersFrom_cons h, List.mem_cons]; simp
    rw [hmem, ih]
    simp only [behindMarker?_eq_some_iff]
    constructor
    · rintro (⟨rest, ⟨marker, hmarker, h⟩, hu⟩ | ⟨before, marker, rest, hmarker, rfl, hu⟩)
      · exact ⟨[], marker, rest, hmarker, h, hu⟩
      · exact ⟨c :: before, marker, rest, hmarker, rfl, hu⟩
    · rintro ⟨before, marker, rest, hmarker, h, hu⟩
      cases before with
      | nil => exact .inl ⟨rest, ⟨marker, hmarker, h⟩, hu⟩
      | cons b bs =>
        cases h
        exact .inr ⟨bs, marker, rest, hmarker, rfl, hu⟩

/-! ### The table -/

/-- The beginnings of a text are its prefixes, without the empty one. -/
theorem mem_beginnings_iff : value ∈ beginnings t ↔ value ≠ [] ∧ value <+: t := by
  induction t generalizing value with
  | nil =>
    refine iff_of_false List.not_mem_nil fun h => h.1 (List.prefix_nil.mp h.2)
  | cons c cs ih =>
    rw [beginnings, List.mem_cons, List.mem_map]
    simp only [ih]
    constructor
    · rintro (rfl | ⟨v, ⟨-, hv⟩, rfl⟩)
      · exact ⟨List.cons_ne_nil _ _, cs, rfl⟩
      · exact ⟨List.cons_ne_nil _ _, List.cons_prefix_cons.mpr ⟨rfl, hv⟩⟩
    · rintro ⟨hne, hprefix⟩
      cases value with
      | nil => exact absurd rfl hne
      | cons b bs =>
        obtain ⟨rfl, hbs⟩ := List.cons_prefix_cons.mp hprefix
        by_cases hnil : bs = []
        · exact .inl (by rw [hnil])
        · exact .inr ⟨bs, ⟨hnil, hbs⟩, rfl⟩

/-- The table has the beginnings of what stands behind the markers, up to the greatest length. -/
theorem mem_assignedTable_iff {line : Text} : value ∈ assignedTable line ↔
    value ≠ [] ∧ value.length ≤ longestInTable ∧
      ∃ before marker rest : Text, marker ∈ markers ∧ line = before ++ (marker ++ rest) ∧
        value <+: trimStart rest := by
  rw [assignedTable, List.mem_flatMap]
  simp only [mem_beginnings_iff, mem_behindMarkersFrom_iff, List.prefix_take_iff]
  constructor
  · rintro ⟨_, ⟨before, marker, rest, hmarker, hline, rfl⟩, hne, hprefix, hlength⟩
    exact ⟨hne, hlength, before, marker, rest, hmarker, hline, hprefix⟩
  · rintro ⟨hne, hlength, before, marker, rest, hmarker, hline, hprefix⟩
    exact ⟨_, ⟨before, marker, rest, hmarker, hline, rfl⟩, hne, hprefix, hlength⟩

/-- What is assigned in a line is shorter than the line. -/
theorem length_lt_of_mem_assignedTable {line : Text} (h : value ∈ assignedTable line) :
    value.length < line.length := by
  obtain ⟨-, -, before, marker, rest, hmarker, rfl, hprefix⟩ := mem_assignedTable_iff.mp h
  have hmarker := List.length_pos_iff.mpr (ne_nil_of_mem_markers marker hmarker)
  have hvalue : value.length ≤ rest.length :=
    hprefix.length_le.trans (List.dropWhile_suffix _).length_le
  simp only [List.length_append]
  omega

/-- A value that starts with no blank stands behind all the blanks of its marker. -/
theorem standsAssigned_iff (hne : value ≠ []) (hhead : ∀ c ∈ value.head?, isBlank c = false)
    {line : Text} : StandsAssigned value line ↔
      ∃ before marker rest : Text, marker ∈ markers ∧ line = before ++ (marker ++ rest) ∧
        value <+: trimStart rest := by
  constructor
  · rintro ⟨before, marker, blanks, behind, hmarker, hblanks, rfl⟩
    refine ⟨before, marker, blanks ++ (value ++ behind), hmarker, ?_, behind, ?_⟩
    · simp only [List.append_assoc]
    · have hstart : trimStart (value ++ behind) = value ++ behind := by
        refine trimStart_eq fun c hc => hhead c ?_
        rwa [List.head?_append_of_ne_nil _ hne] at hc
      rw [trimStart, List.dropWhile_append_of_pos hblanks, ← trimStart, hstart]
  · rintro ⟨before, marker, rest, hmarker, rfl, behind, hrest⟩
    refine ⟨before, marker, rest.takeWhile isBlank, behind, hmarker,
      List.all_eq_true.mp List.all_takeWhile, ?_⟩
    rw [List.append_assoc, hrest, trimStart, List.append_assoc, List.takeWhile_append_dropWhile,
      List.append_assoc]

end Line

namespace LineFacts

/-- **One notion of assigned values**: whether a value that starts with no blank is assigned in a
line, of which the table or the search tells by its length, is whether it stands assigned in it. -/
theorem assigns_iff_standsAssigned (line : Line) (code : Text)
    (hcode : ∀ c ∈ code.head?, isBlank c = false) :
    ((of line).assigns code = true ↔ Line.StandsAssigned code line.text) ∧
      (Line.assigns code line.text = true ↔ Line.StandsAssigned code line.text) ∧
      (code ≠ [] → code.length ≤ Line.longestInTable →
        (code ∈ (of line).assigned ↔ Line.StandsAssigned code line.text)) := by
  have htable : code ≠ [] → code.length ≤ Line.longestInTable →
      (code ∈ (of line).assigned ↔ Line.StandsAssigned code line.text) := by
    intro hne hlength
    rw [Line.standsAssigned_iff hne hcode]
    exact Line.mem_assignedTable_iff.trans
      ⟨fun h => h.2.2, fun h => ⟨hne, hlength, h⟩⟩
  refine ⟨?_, Line.assigns_iff, htable⟩
  unfold assigns
  split
  · rename_i hrange
    simp only [Bool.and_eq_true, decide_eq_true_eq] at hrange
    rw [List.contains_iff_mem]
    exact htable (List.length_pos_iff.mp hrange.1) hrange.2
  · exact Line.assigns_iff

/-- Markers within a word, right behind one another, and parted by blanks. -/
def markersInRow : Line := .cut "This is:= \u3000\t482911 is=:".toList 0 23

/-- A short value, of which the table tells, a long one with markers in it, and one that is not
assigned. -/
theorem assigns_markersInRow :
    (∀ c ∈ "482911".toList.head?, isBlank c = false) ∧
      (∀ c ∈ ":= \u3000\t482911 is".toList.head?, isBlank c = false) ∧
      (of markersInRow).assigns "482911".toList = true ∧
      (of markersInRow).assigns ":= \u3000\t482911 is".toList = true ∧
      (of markersInRow).assigns "is=".toList = false ∧
      Line.StandsAssigned "482911".toList markersInRow.text ∧
      Line.StandsAssigned ":= \u3000\t482911 is".toList markersInRow.text ∧
      ¬ Line.StandsAssigned "is=".toList markersInRow.text := by
  have hshort : (of markersInRow).assigns "482911".toList = true := by decide +kernel
  have hlong : (of markersInRow).assigns ":= \u3000\t482911 is".toList = true := by decide +kernel
  have hnot : (of markersInRow).assigns "is=".toList = false := by decide +kernel
  have hheads : (∀ c ∈ "482911".toList.head?, isBlank c = false) ∧
      (∀ c ∈ ":= \u3000\t482911 is".toList.head?, isBlank c = false) ∧
      ∀ c ∈ "is=".toList.head?, isBlank c = false := by
    refine ⟨?_, ?_, ?_⟩ <;> rintro c ⟨⟩ <;> decide
  obtain ⟨hdigit, hcolon, hi⟩ := hheads
  have htable := assigns_iff_standsAssigned markersInRow "482911".toList hdigit
  have hsearch := assigns_iff_standsAssigned markersInRow ":= \u3000\t482911 is".toList hcolon
  have hother := assigns_iff_standsAssigned markersInRow "is=".toList hi
  refine ⟨hdigit, hcolon, hshort, hlong, hnot, htable.1.mp hshort, hsearch.1.mp hlong,
    fun h => ?_⟩
  rw [hother.1.mpr h] at hnot
  cases hnot

/-- A value that starts with a blank is looked for in the table, which has no such value. -/
example : (of markersInRow).assigns " \u3000\t482911".toList = false ∧
    Line.assigns " \u3000\t482911".toList markersInRow.text = true := by decide +kernel

end LineFacts

end Passcode
