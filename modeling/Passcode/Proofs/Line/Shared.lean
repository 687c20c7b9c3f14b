import Mathlib.Data.List.Induction
import Mathlib.Data.List.Nodup
import Passcode.Proofs.Line.Index
import Passcode.Proofs.Text.Runs

/-!
# Shared lines — an index answers as the text does, whatever it was asked before

The line feeds of a text are listed once (`Text.indicesOf`).  The last of them before an index and
the first from another index on are the two ends of a stretch of the text without line feeds, so
the span that the list gives is the span of the line in the text (`LineIndex.spanOf_eq`).

A look-up adds the facts that it reads behind those that are known.  So what is known stays in its
place (`LineIndex.Grows`) and no line is known twice (`LineIndex.KnowsOnce`), in one look-up and in
any number of them (`LineIndex.lookUps_grows`).  Two spans are answered from one place exactly if
their lines are the same (`LineIndex.shared_lines`).
-/

namespace Passcode

namespace Text

/-! ### The indices of a character -/

/-- Line ends are found part by part. -/
theorem indicesOf_append (c : Char) (pos : Nat) (s t : Text) :
    indicesOf c pos (s ++ t) = indicesOf c pos s ++ indicesOf c (pos + s.length) t := by
  induction s generalizing pos with
  | nil => rfl
  | cons d ds ih =>
    have hpos : pos + (d :: ds).length = pos + 1 + ds.length := by
      rw [List.length_cons]
      omega
    rw [List.cons_append, indicesOf, indicesOf, hpos, ih]
    split
    · rw [List.cons_append]
    · rfl

/-- They lie within the text. -/
theorem bounds_of_mem_indicesOf {c : Char} {t : Text} {pos i : Nat} (h : i ∈ indicesOf c pos t) :
    pos ≤ i ∧ i < pos + t.length := by
  induction t generalizing pos with
  | nil => cases h
  | cons d ds ih =>
    have later (h : i ∈ indicesOf c (pos + 1) ds) : pos ≤ i ∧ i < pos + (d :: ds).length := by
      obtain ⟨hle, hlt⟩ := ih h
      rw [List.length_cons]
      omega
    rw [indicesOf] at h
    split at h
    · rcases List.mem_cons.mp h with rfl | h
      · simp
      · exact later h
    · exact later h

/-- The indices below `n` are those in the first `n` characters, and the others are those in the
rest. -/
theorem split_indicesOf (c : Char) (t : Text) (n : Nat) :
    (indicesOf c 0 t).takeWhile (· < n) = indicesOf c 0 (t.take n) ∧
      (indicesOf c 0 t).dropWhile (· < n) = indicesOf c (min n t.length) (t.drop n) := by
  have hsplit : indicesOf c 0 t =
      indicesOf c 0 (t.take n) ++ indicesOf c (min n t.length) (t.drop n) := by
    rw [← List.length_take, ← Nat.zero_add (t.take n).length, ← indicesOf_append,
      List.take_append_drop]
  have hbelow : ∀ i ∈ indicesOf c 0 (t.take n), decide (i < n) = true := by
    intro i hi
    have hlt := (bounds_of_mem_indicesOf hi).2
    rw [List.length_take] at hlt
    exact decide_eq_true (by omega)
  have hnot : ∀ i ∈ indicesOf c (min n t.length) (t.drop n), ¬ i < n := by
    intro i hi
    obtain ⟨hle, hlt⟩ := bounds_of_mem_indicesOf hi
    rw [List.length_drop] at hlt
    omega
  rw [hsplit, List.takeWhile_append_of_pos hbelow, List.dropWhile_append_of_pos hbelow]
  cases hrest : indicesOf c (min n t.length) (t.drop n) with
  | nil => simp
  | cons i is =>
    have hi : ¬ i < n := hnot i (hrest ▸ List.mem_cons_self)
    simp [hi]

/-- Behind the last index of a character stands what comes behind that character at the end. -/
theorem getLast_indicesOf (c : Char) (t : Text) :
    ((indicesOf c 0 t).getLast?.map (· + 1)).getD 0 = (t.reverse.dropWhile (· != c)).length := by
  induction t using List.reverseRecOn with
  | nil => rfl
  | append_singleton t d ih =>
    rw [indicesOf_append, List.reverse_append]
    by_cases hd : d = c
    · simp [indicesOf, hd]
    · simpa [indicesOf, hd] using ih

/-- Before the first index of a character stands what comes before that character. -/
theorem head_indicesOf (c : Char) (pos : Nat) (t : Text) :
    (indicesOf c pos t).head?.getD (pos + t.length) =
      pos + (t.takeWhile (· != c)).length := by
  induction t generalizing pos with
  | nil => rfl
  | cons d ds ih =>
    by_cases hd : d = c
    · simp [indicesOf, hd]
    · have hrest := ih (pos + 1)
      simp only [indicesOf, hd, if_false, bne_iff_ne, ne_eq, not_false_eq_true,
        List.takeWhile_cons_of_pos, List.length_cons]
      rw [Nat.add_comm ds.length 1, ← Nat.add_assoc, hrest]
      omega

end Text

namespace LineIndex

/-! ### The line around a span -/

/-- **The list of line feeds gives the span of the line.** -/
theorem spanOf_eq (text : Text) (first last : Nat) :
    (of text).spanOf first last =
      ((Line.around text first last).first, (Line.around text first last).stop) := by
  have hbefore := (Text.split_indicesOf '\n' text first).1
  have hbehind := (Text.split_indicesOf '\n' text (last + 1)).2
  have hlast : ((last : Int) + 1) = ((last + 1 : Nat) : Int) := rfl
  have hlength : min (last + 1) text.length + (text.drop (last + 1)).length = text.length := by
    rw [List.length_drop]
    omega
  have hdrop : text.drop (min (last + 1) text.length) = text.drop (last + 1) := by
    rcases Nat.le_total (last + 1) text.length with h | h
    · rw [Nat.min_eq_left h]
    · rw [Nat.min_eq_right h, List.drop_length, List.drop_eq_nil_of_le h]
  simp only [spanOf, of, Line.around, Line.cut, hlast, Int.ofNat_lt, Text.boundOf_natCast]
  rw [hbefore, hbehind, Text.getLast_indicesOf, ← List.take_eq_take_min, hdrop,
    ← Text.head_indicesOf, hlength]

/-- The facts of the line around a span are read off the line in the text. -/
theorem factsAt_eq (text : Text) (first last : Nat) :
    (of text).factsAt first last = .of (.around text first last) := by
  rw [factsAt, spanOf_eq]
  rfl

/-! ### What a look-up does -/

/-- The second index knows what the first one does, in the same places, of the same text. -/
structure Grows (ix ix' : LineIndex) : Prop where
  text : ix'.text = ix.text
  feeds : ix'.feeds = ix.feeds
  known : ix.known <+: ix'.known

theorem Grows.refl (ix : LineIndex) : ix.Grows ix := ⟨rfl, rfl, List.prefix_refl _⟩

theorem Grows.trans {ix ix' ix'' : LineIndex} (h : ix.Grows ix') (h' : ix'.Grows ix'') :
    ix.Grows ix'' :=
  ⟨h'.text.trans h.text, h'.feeds.trans h.feeds, h.known.trans h'.known⟩

/-- What is known in a place stays known there. -/
theorem Grows.getElem?_known {ix ix' : LineIndex} (h : ix.Grows ix') {place : Nat}
    {facts : LineFacts} (hknown : ix.known[place]? = some facts) :
    ix'.known[place]? = some facts := by
  obtain ⟨later, hlater⟩ := h.known
  obtain ⟨hlt, -⟩ := List.getElem?_eq_some_iff.mp hknown
  rw [← hlater, List.getElem?_append_left hlt, hknown]

/-- No line is known twice. -/
def KnowsOnce (ix : LineIndex) : Prop := (ix.known.map factsSpan).Nodup

theorem knowsOnce_of (text : Text) : (of text).KnowsOnce := List.nodup_nil

/-- After a look-up the answer is known in its place, and each line once. -/
theorem lookUp_grows {ix : LineIndex} (h : ix.KnowsOnce) (first last : Int) :
    ix.Grows (ix.lookUp first last).2 ∧ (ix.lookUp first last).2.KnowsOnce ∧
      (ix.lookUp first last).2.known[(ix.lookUp first last).1.1]? =
        some (ix.lookUp first last).1.2 := by
  rcases ix.lookUp_cases first last with ⟨place, facts, hknown, -, heq⟩ | ⟨hnew, heq⟩
  · rw [heq]
    exact ⟨.refl ix, h, hknown⟩
  · rw [heq]
    refine ⟨⟨rfl, rfl, List.prefix_append _ _⟩, ?_, List.getElem?_concat_length⟩
    rw [KnowsOnce, List.map_append, List.map_singleton, factsSpan_factsAt]
    exact List.nodup_append.mpr ⟨h, List.nodup_singleton _,
      fun a ha b hb hab => hnew (List.mem_singleton.mp hb ▸ hab ▸ ha)⟩

/-! ### Any number of look-ups -/

/-- Looks spans up one after another. -/
def lookUps : LineIndex → List (Int × Int) → List (Nat × LineFacts) × LineIndex
  | ix, [] => ([], ix)
  | ix, (first, last) :: spans =>
    let (answer, ix) := ix.lookUp first last
    let (answers, ix) := ix.lookUps spans
    (answer :: answers, ix)

/-- The lookups go on with the index that the first one leaves. -/
theorem lookUps_cons (ix : LineIndex) (span : Int × Int) (spans : List (Int × Int)) :
    ix.lookUps (span :: spans) =
      ((ix.lookUp span.1 span.2).1 :: ((ix.lookUp span.1 span.2).2.lookUps spans).1,
        ((ix.lookUp span.1 span.2).2.lookUps spans).2) := rfl

/-- Each answer has the facts of its line, whatever was asked before. -/
theorem lookUps_facts {ix : LineIndex} (h : ix.Faithful) (spans : List (Int × Int)) :
    (ix.lookUps spans).1.map Prod.snd = spans.map (fun s => ix.factsAt s.1 s.2) ∧
      (ix.lookUps spans).2.Faithful := by
  induction spans generalizing ix with
  | nil => exact ⟨rfl, h⟩
  | cons span spans ih =>
    obtain ⟨hfacts, hfaithful, htext, hfeeds⟩ := lookUp_facts h span.1 span.2
    obtain ⟨hrest, hend⟩ := ih hfaithful
    simp only [factsAt_congr htext hfeeds] at hrest
    rw [lookUps_cons]
    exact ⟨by rw [List.map_cons, List.map_cons, hfacts, hrest], hend⟩

/-- In the end each answer is known in its place, and each line once. -/
theorem lookUps_grows {ix : LineIndex} (h : ix.KnowsOnce) (spans : List (Int × Int)) :
    ix.Grows (ix.lookUps spans).2 ∧ (ix.lookUps spans).2.KnowsOnce ∧
      ∀ a ∈ (ix.lookUps spans).1, (ix.lookUps spans).2.known[a.1]? = some a.2 := by
  induction spans generalizing ix with
  | nil => exact ⟨.refl ix, h, nofun⟩
  | cons span spans ih =>
    obtain ⟨hgrows, honce, hanswer⟩ := lookUp_grows h span.1 span.2
    obtain ⟨hlater, hend, hanswers⟩ := ih honce
    rw [lookUps_cons]
    refine ⟨hgrows.trans hlater, hend, ?_⟩
    intro a ha
    rcases List.mem_cons.mp ha with rfl | ha
    · exact hlater.getElem?_known hanswer
    · exact hanswers a ha

/-- In an index that knows no line twice, facts known in two places are of two lines. -/
theorem KnowsOnce.place_eq_iff {ix : LineIndex} (h : ix.KnowsOnce) {a b : Nat × LineFacts}
    (ha : ix.known[a.1]? = some a.2) (hb : ix.known[b.1]? = some b.2) :
    a.1 = b.1 ↔ a.2.line.first = b.2.line.first ∧ a.2.line.last = b.2.line.last := by
  constructor
  · intro hplace
    rw [hplace, hb] at ha
    rw [Option.some.inj ha]
    exact ⟨rfl, rfl⟩
  · rintro ⟨hfirst, hlast⟩
    have hstop : a.2.line.stop = b.2.line.stop := by
      unfold Line.last at hlast
      omega
    have hspan : factsSpan a.2 = factsSpan b.2 := Prod.ext hfirst hstop
    have hplaces : (ix.known.map factsSpan)[a.1]? = (ix.known.map factsSpan)[b.1]? := by
      rw [List.getElem?_map, List.getElem?_map, ha, hb, Option.map_some, Option.map_some, hspan]
    obtain ⟨hlt, -⟩ := List.getElem?_eq_some_iff.mp ha
    exact (List.getElem?_inj (by rwa [List.length_map]) h).mp hplaces

/-- **A shared index is a faithful one.**  Whatever spans are looked up, in any order, each answer
has the facts of the line around its span in the text; what an answer gives stays known in its
place, and two answers come from one place exactly if their lines have the same ends.  Candidates
that share such an index get the breakdowns that each gets with an index of its own. -/
theorem shared_lines (text : Text) (spans : List (Nat × Nat)) :
    let asked := (of text).lookUps (spans.map fun s => ((s.1 : Int), (s.2 : Int)))
    asked.1.map Prod.snd = spans.map (fun s => LineFacts.of (.around text s.1 s.2)) ∧
    (∀ a ∈ asked.1, asked.2.known[a.1]? = some a.2) ∧
    (∀ a ∈ asked.1, ∀ b ∈ asked.1,
      a.1 = b.1 ↔ a.2.line.first = b.2.line.first ∧ a.2.line.last = b.2.line.last) ∧
    ∀ (s : Surroundings) (cs : List Candidate),
      ScoredCandidate.ofAll { s with text } asked.2 cs =
        cs.map fun c => (ScoredCandidate.of { s with text } (of text) c).1 := by
  intro asked
  obtain ⟨hfacts, hfaithful⟩ := lookUps_facts (faithful_of text)
    (spans.map fun s => ((s.1 : Int), (s.2 : Int)))
  obtain ⟨hgrows, honce, hknown⟩ := lookUps_grows (knowsOnce_of text)
    (spans.map fun s => ((s.1 : Int), (s.2 : Int)))
  refine ⟨?_, hknown, fun a ha b hb => honce.place_eq_iff (hknown a ha) (hknown b hb), ?_⟩
  · rw [hfacts, List.map_map]
    exact List.map_congr_left fun s _ => factsAt_eq text s.1 s.2
  · intro s cs
    rw [ScoredCandidate.ofAll_eq_map _ hfaithful]
    refine List.map_congr_left fun c _ => ?_
    have halone := (lookUp_facts (faithful_of text) c.first c.last).1
    rw [factsAt_congr hgrows.text hgrows.feeds, ← halone]
    rfl

/-- Two lines with an empty one between them. -/
def partedLines : Text := "code 12\n\nis: 345".toList

/-- Two spans on the first line, one that is the first line feed, one that is the second, one that
crosses both, and one behind the end of the text. -/
def scatteredSpans : List (Nat × Nat) := [(5, 6), (0, 3), (7, 7), (8, 8), (5, 13), (30, 40)]

theorem shared_lines_scattered :
    let asked := (of partedLines).lookUps (scatteredSpans.map fun s => ((s.1 : Int), (s.2 : Int)))
    let whole := LineFacts.of (.around partedLines 5 6)
    let withFeed := LineFacts.of (.around partedLines 7 7)
    asked.1.map (fun a => (a.1, a.2.line.text)) =
        [(0, "code 12".toList), (0, "code 12".toList), (1, "code 12\n".toList),
          (2, "\nis: 345".toList), (3, partedLines), (4, "is: 345".toList)] ∧
      (0, whole) ∈ asked.1 ∧ (1, withFeed) ∈ asked.1 ∧
      asked.2.known[0]? = some whole ∧ asked.2.known[1]? = some withFeed ∧
      whole.line.first = withFeed.line.first ∧ whole.line.last ≠ withFeed.line.last := by
  intro asked whole withFeed
  obtain ⟨-, hknown, hplace, -⟩ := shared_lines partedLines scatteredSpans
  have hwhole : (0, whole) ∈ asked.1 := by decide +kernel
  have hfeed : (1, withFeed) ∈ asked.1 := by decide +kernel
  have hfirst : whole.line.first = withFeed.line.first := by decide +kernel
  refine ⟨by decide +kernel, hwhole, hfeed, hknown _ hwhole, hknown _ hfeed, hfirst, ?_⟩
  intro hlast
  exact absurd ((hplace _ hwhole _ hfeed).mpr ⟨hfirst, hlast⟩) Nat.zero_ne_one

end LineIndex

end Passcode
