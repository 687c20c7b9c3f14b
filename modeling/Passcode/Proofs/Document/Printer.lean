import Passcode.Document.Printer

/-!
# Printer — a written document is one line

A text is *shown* when none of its characters lies below the space, so that it has neither a line
feed nor the start of a control sequence.  Strings are escaped, and all else that is written
consists of digits, letters and marks, so the written form of a document is shown, whatever stands
in it (`shown_render`).  With a line feed behind it, it is one line (`Text.Shown.isLine`), and so
many of these have so many line feeds (`Text.count_feed_flatten`).
-/

namespace Passcode

namespace Text

/-- No character of the text lies below the space. -/
def Shown (t : Text) : Prop := ∀ c ∈ t, 0x20 ≤ c.toNat

instance (t : Text) : Decidable t.Shown := List.decidableBAll _ t

variable {s t : Text} {c : Char}

@[simp] theorem shown_nil : Shown [] := nofun

@[simp] theorem shown_cons : Shown (c :: t) ↔ 0x20 ≤ c.toNat ∧ Shown t := List.forall_mem_cons

@[simp] theorem shown_append : Shown (s ++ t) ↔ Shown s ∧ Shown t := List.forall_mem_append

theorem Shown.subset (h : Shown t) (hs : s ⊆ t) : Shown s := fun c hc => h c (hs hc)

/-- The text is one line, with the line feed at its end. -/
def IsLine (t : Text) : Prop := ∃ body : Text, t = body ++ ['\n'] ∧ '\n' ∉ body

/-- A shown text with a line feed behind it is one line. -/
theorem Shown.isLine (h : Shown t) : IsLine (t ++ ['\n']) :=
  ⟨t, rfl, fun hmem => absurd (h _ hmem) (by decide)⟩

/-- A line of such characters has no escape character. -/
theorem Shown.escape_notMem (h : Shown t) : '\x1B' ∉ t ++ ['\n'] := by
  rw [List.mem_append, not_or]
  exact ⟨fun hmem => absurd (h _ hmem) (by decide), by decide⟩

theorem shown_replicate (n : Nat) (h : 0x20 ≤ c.toNat) : Shown (List.replicate n c) :=
  fun _ hd => (List.eq_of_mem_replicate hd) ▸ h

theorem shown_hexDigits (width n : Nat) : Shown (hexDigits width n) := by
  have hdigit : ∀ k < 16, 0x20 ≤ (hexDigit k).toNat := by decide
  induction width generalizing n with
  | zero => exact shown_nil
  | succ width ih =>
    rw [hexDigits, shown_append]
    exact ⟨ih _, shown_cons.mpr ⟨hdigit _ (Nat.mod_lt n (by decide)), shown_nil⟩⟩

end Text

/-! ### Numbers -/

namespace Binary64
open Text

/-- Decimal digits are shown. -/
theorem shown_digitsOf (n : Nat) : Shown (digitsOf n) := by
  intro c hc
  have hdigit := Nat.isDigit_of_mem_toDigits (by decide) (by decide) hc
  simp only [Char.isDigit, Bool.and_eq_true, decide_eq_true_eq, ge_iff_le, UInt32.le_iff_toNat_le]
    at hdigit
  exact Nat.le_trans (by decide) hdigit.1

theorem shown_withSign {negative : Bool} {t : Text} (h : Shown t) :
    Shown (withSign negative t) := by
  unfold withSign
  split
  · exact shown_cons.mpr ⟨by decide, h⟩
  · exact h

theorem shown_trimZeros {ds : Text} (h : Shown ds) : Shown (trimZeros ds) :=
  h.subset fun _ hc => List.mem_reverse.mp
    ((List.dropWhile_sublist _).subset (List.mem_reverse.mp hc))

/-- A number written with a point among its digits is shown. -/
theorem shown_positional {ds : Text} (h : Shown ds) (point : Int) :
    Shown (positional ds point) := by
  unfold positional
  split
  · rw [List.cons_append, List.cons_append]
    simp only [shown_cons, shown_append]
    exact ⟨by decide, by decide, shown_replicate _ (by decide), h⟩
  · split
    · simp only [shown_cons, shown_append, shown_nil]
      exact ⟨⟨h, shown_replicate _ (by decide)⟩, by decide, by decide, trivial⟩
    · simp only [shown_cons, shown_append]
      exact ⟨h.subset (List.take_subset _ _), by decide, h.subset (List.drop_subset _ _)⟩

/-- A number written with an exponent is shown. -/
theorem shown_scientific {ds : Text} (h : Shown ds) (exponent : Int) :
    Shown (scientific ds exponent) := by
  have hsize := shown_digitsOf exponent.natAbs
  unfold scientific
  dsimp only
  refine shown_append.mpr ⟨?_, shown_cons.mpr ⟨by decide, shown_cons.mpr ⟨?_, ?_⟩⟩⟩
  · split
    · exact shown_nil
    · exact h
    · obtain ⟨hd, hrest⟩ := shown_cons.mp h
      exact shown_cons.mpr ⟨hd, shown_cons.mpr ⟨by decide, hrest⟩⟩
  · split <;> decide
  · split
    · exact shown_cons.mpr ⟨by decide, hsize⟩
    · exact hsize

/-- The shortest digits of a number are shown, wherever the point stands. -/
theorem shown_magnitudeText (r : Nat) : Shown (magnitudeText r) := by
  have hdigits := shown_trimZeros (shown_digitsOf (shortest r).digits)
  unfold magnitudeText
  split
  · decide
  · dsimp only
    split
    · exact shown_positional hdigits _
    · exact shown_scientific hdigits _

/-- A floating-point number is shown, an infinite one and one that is not a number included. -/
theorem shown_text (x : Binary64) : Shown x.text := by
  cases x with
  | nan => exact of_decide_eq_true rfl
  | signed n r =>
    rw [text]
    refine shown_withSign ?_
    split
    · exact of_decide_eq_true rfl
    · exact shown_magnitudeText r

end Binary64

/-! ### Documents -/

namespace Document
open Text

/-- A character is written as itself or as its escape, and either is shown. -/
theorem shown_escapedChar (c : Char) : Shown (escapedChar c) := by
  unfold escapedChar
  split
  -- The quote and the backslash stand for themselves behind a backslash.
  · rename_i h
    simp only [Bool.or_eq_true, decide_eq_true_eq] at h
    rcases h with rfl | rfl <;> decide
  split
  · decide
  split
  · decide
  split
  · decide
  split
  · decide
  split
  · decide
  split
  · simp only [shown_cons]
    exact ⟨by decide, by decide, shown_hexDigits 4 _⟩
  · rename_i hnot
    exact shown_cons.mpr ⟨Nat.le_of_not_lt hnot, shown_nil⟩

/-- A string is shown between its quotation marks, whatever stands in it. -/
theorem shown_renderString (s : String) : Shown (renderString s) := by
  have hinside : Shown (s.toList.flatMap escapedChar) := fun c hc => by
    obtain ⟨d, -, hd⟩ := List.mem_flatMap.mp hc
    exact shown_escapedChar d c hd
  rw [renderString, List.cons_append, shown_cons, shown_append]
  exact ⟨by decide, hinside, by decide⟩

theorem shown_renderFloat (x : Binary64) : Shown (renderFloat x) := by
  unfold renderFloat
  split
  · exact of_decide_eq_true rfl
  · split
    · exact Binary64.shown_withSign (of_decide_eq_true rfl)
    · exact Binary64.shown_text _

/-- Shown texts are shown with commas between them. -/
theorem shown_commaList {ts : List Text} (h : ∀ t ∈ ts, Shown t) : Shown (commaList ts) := by
  induction ts with
  | nil => exact shown_nil
  | cons t rest ih =>
    obtain ⟨ht, hrest⟩ := List.forall_mem_cons.mp h
    cases rest with
    | nil => exact ht
    | cons u us =>
      rw [commaList, shown_append, shown_cons, shown_cons]
      · exact ⟨ht, by decide, by decide, ih hrest⟩
      · exact nofun

mutual

/-- **The written form of a document** has no character below the space. -/
theorem shown_render : ∀ d : Document, Shown d.render
  | .null => by rw [render]; decide
  | .bool true => by rw [render]; decide
  | .bool false => by rw [render]; decide
  | .int n => by rw [render]; exact Binary64.shown_withSign (Binary64.shown_digitsOf _)
  | .float x => by rw [render]; exact shown_renderFloat x
  | .string s => by rw [render]; exact shown_renderString s
  | .list items => by
    rw [render, List.cons_append, shown_cons, shown_append]
    exact ⟨by decide, shown_commaList (shown_renderItems items), by decide⟩
  | .mapping fields => by
    rw [render, List.cons_append, shown_cons, shown_append]
    refine ⟨by decide, shown_commaList fun t ht => ?_, by decide⟩
    obtain ⟨f, hf, rfl⟩ := List.mem_map.mp ht
    rw [shown_append, shown_cons, shown_cons]
    exact ⟨shown_renderString f.1, by decide, by decide,
      shown_renderFields fields f (List.mem_mergeSort.mp hf)⟩

/-- The same of each item of a list. -/
theorem shown_renderItems : ∀ items : List Document, ∀ t ∈ renderItems items, Shown t
  | [] => nofun
  | d :: ds => by
    rw [renderItems]
    exact List.forall_mem_cons.mpr ⟨shown_render d, shown_renderItems ds⟩

/-- The same of the value of each key of a mapping. -/
theorem shown_renderFields : ∀ fields : Fields, ∀ f ∈ renderFields fields, Shown f.2
  | [] => nofun
  | (_, value) :: rest => by
    rw [renderFields]
    exact List.forall_mem_cons.mpr ⟨shown_render value, shown_renderFields rest⟩

end

end Document

end Passcode
