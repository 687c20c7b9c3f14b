import Passcode.Signal

/-!
# Line index — what is kept is what would be read

A look-up finds the facts of the line among the known ones, or reads them and makes them known
behind the others (`lookUp_cases`).  The facts of a line are kept under its span
(`LineIndex.Faithful`), so looking a span up gives the facts of its line whether they are known
already or read now (`lookUp_facts`), and candidates that share an index are scored as if each had
its line read for itself (`ofAll_eq_map`).

A text without line feeds has one line, and it is the whole text (`factsAt_of_no_feed`).
-/

namespace Passcode

theorem Line.text_cut_all (text : Text) : (Line.cut text 0 text.length).text = text := by
  rw [cut, List.take_length, List.drop_zero]

namespace LineIndex

/-- Each of the known facts was read off the line under whose span it is known. -/
def Faithful (ix : LineIndex) : Prop :=
  ∀ facts ∈ ix.known, facts = .of (.cut ix.text facts.line.first facts.line.stop)

theorem faithful_of (text : Text) : (of text).Faithful := nofun

/-- The facts of the line around a span. -/
def factsAt (ix : LineIndex) (first last : Int) : LineFacts :=
  .of (.cut ix.text (ix.spanOf first last).1 (ix.spanOf first last).2)

theorem factsAt_congr {ix ix' : LineIndex} (htext : ix'.text = ix.text)
    (hfeeds : ix'.feeds = ix.feeds) (first last : Int) :
    ix'.factsAt first last = ix.factsAt first last := by
  simp only [factsAt, spanOf, htext, hfeeds]

/-- The first and the stop of the line that facts were read off. -/
def factsSpan (facts : LineFacts) : Nat × Nat := (facts.line.first, facts.line.stop)

theorem factsSpan_factsAt (ix : LineIndex) (first last : Int) :
    factsSpan (ix.factsAt first last) = ix.spanOf first last := rfl

/-- **A look-up** finds the line among the known ones, or makes it known behind them. -/
theorem lookUp_cases (ix : LineIndex) (first last : Int) :
    (∃ place facts, ix.known[place]? = some facts ∧ factsSpan facts = ix.spanOf first last ∧
      ix.lookUp first last = ((place, facts), ix)) ∨
    (ix.spanOf first last ∉ ix.known.map factsSpan ∧
      ix.lookUp first last = ((ix.known.length, ix.factsAt first last),
        { ix with known := ix.known ++ [ix.factsAt first last] })) := by
  unfold lookUp
  dsimp only
  split
  · rename_i facts place hfind
    have hspan := List.find?_some hfind
    simp only [Bool.and_eq_true, beq_iff_eq] at hspan
    have hknown := List.mem_zipIdx_iff_getElem?.mp (List.mem_of_find?_eq_some hfind)
    exact .inl ⟨place, facts, hknown, Prod.ext hspan.1 hspan.2, rfl⟩
  · rename_i hfind
    refine .inr ⟨?_, rfl⟩
    intro hmem
    obtain ⟨facts, hfacts, hspan⟩ := List.mem_map.mp hmem
    obtain ⟨place, hplace⟩ := List.mem_iff_getElem?.mp hfacts
    have hnot := List.find?_eq_none.mp hfind (facts, place)
      (List.mem_zipIdx_iff_getElem?.mpr hplace)
    simp [← hspan, factsSpan] at hnot

/-- Looking a span up gives the facts of its line, and the index stays faithful. -/
theorem lookUp_facts {ix : LineIndex} (h : ix.Faithful) (first last : Int) :
    (ix.lookUp first last).1.2 = ix.factsAt first last ∧ (ix.lookUp first last).2.Faithful ∧
      (ix.lookUp first last).2.text = ix.text ∧ (ix.lookUp first last).2.feeds = ix.feeds := by
  rcases ix.lookUp_cases first last with ⟨place, facts, hknown, hspan, heq⟩ | ⟨-, heq⟩
  · -- The facts found are known under this very span.
    rw [heq]
    refine ⟨?_, h, rfl, rfl⟩
    rw [factsAt, ← hspan]
    exact h facts (List.mem_of_getElem? hknown)
  · rw [heq]
    refine ⟨rfl, fun facts hfacts => ?_, rfl, rfl⟩
    rcases List.mem_append.mp hfacts with hfacts | hfacts
    · exact h facts hfacts
    · rw [List.mem_singleton.mp hfacts]; rfl

/-! ### Texts of one line -/

theorem indicesOf_of_not_mem {c : Char} {t : Text} (h : c ∉ t) (pos : Nat) :
    Text.indicesOf c pos t = [] := by
  induction t generalizing pos with
  | nil => rfl
  | cons d ds ih =>
    have hne : d ≠ c := fun hd => h (hd ▸ List.mem_cons_self)
    rw [Text.indicesOf, if_neg hne]
    exact ih (fun hmem => h (List.mem_cons_of_mem _ hmem)) _

/-- A text without line feeds has one line, which is the whole text. -/
theorem factsAt_of_no_feed {text : Text} (h : '\n' ∉ text) (first last : Int) :
    (of text).factsAt first last = .of (.cut text 0 text.length) := by
  have hfeeds : (of text).feeds = [] := indicesOf_of_not_mem h 0
  simp only [factsAt, spanOf, hfeeds, List.takeWhile_nil, List.dropWhile_nil, List.getLast?_nil,
    Option.map_none, Option.getD_none, List.head?_nil]
  rfl

end LineIndex

namespace ScoredCandidate

/-- The score of a candidate by the facts of its line. -/
def onLine (s : Surroundings) (facts : LineFacts) (c : Candidate) : ScoredCandidate :=
  { candidate := c
    breakdown := .ofCandidate s facts c
    score := (Breakdown.ofCandidate s facts c).total }

/-- Candidates that share an index are scored as if each had its line read for itself. -/
theorem ofAll_eq_map (s : Surroundings) {ix : LineIndex} (h : ix.Faithful) (cs : List Candidate) :
    ofAll s ix cs = cs.map (fun c => onLine s (ix.factsAt c.first c.last) c) := by
  induction cs generalizing ix with
  | nil => rfl
  | cons c cs ih =>
    obtain ⟨hfacts, hfaithful, htext, hfeeds⟩ := LineIndex.lookUp_facts h c.first c.last
    have hrest := ih hfaithful
    simp only [LineIndex.factsAt_congr htext hfeeds] at hrest
    have hcons : ofAll s ix (c :: cs) = onLine s (ix.lookUp c.first c.last).1.2 c ::
      ofAll s (ix.lookUp c.first c.last).2 cs := rfl
    rw [hcons, hfacts, hrest, List.map_cons]

end ScoredCandidate

end Passcode
