import Passcode.Message
import Passcode.Proofs.Text.Runs

/-!
# Message — the blanks of a normal form

* `eq_space_of_mem_text`: the only blank character in the normal form of a message is the plain
  space, so the normal form is one line (`feed_not_mem_text`).
* `infix_trim`: a stretch that neither starts nor ends with a blank is left whole by trimming.
-/

namespace Passcode

namespace Text

/-! ### Trimming -/

theorem mem_of_mem_trimEnd {t : Text} {c : Char} (h : c ∈ trimEnd t) : c ∈ t :=
  List.mem_reverse.mp ((List.dropWhile_sublist _).mem (List.mem_reverse.mp h))

theorem mem_of_mem_trim {t : Text} {c : Char} (h : c ∈ trim t) : c ∈ t :=
  (List.dropWhile_sublist _).mem (mem_of_mem_trimEnd h)

/-- Dropping blanks from the start leaves a stretch whole that does not start with one. -/
theorem infix_trimStart {s t : Text} (h : s <:+: t) (hhead : ∀ c ∈ s.head?, isBlank c = false) :
    s <:+: trimStart t := by
  obtain ⟨before, behind, rfl⟩ := h
  cases s with
  | nil => exact List.nil_infix
  | cons c cs =>
    have hc : isBlank c = false := hhead c rfl
    rw [trimStart, List.append_assoc, List.dropWhile_append]
    split
    · rw [List.cons_append, List.dropWhile_cons_of_neg (by rw [hc]; exact Bool.false_ne_true)]
      exact ⟨[], behind, rfl⟩
    · exact ⟨before.dropWhile isBlank, behind, by rw [List.append_assoc]⟩

/-- Trimming leaves a stretch whole that neither starts nor ends with a blank. -/
theorem infix_trim {s t : Text} (h : s <:+: t) (hhead : ∀ c ∈ s.head?, isBlank c = false)
    (hlast : ∀ c ∈ s.getLast?, isBlank c = false) : s <:+: trim t := by
  have hback : s.reverse <:+: trimStart (trimStart t).reverse :=
    infix_trimStart (List.reverse_infix.mpr (infix_trimStart h hhead))
      (by rw [List.head?_reverse]; exact hlast)
  exact List.reverse_infix.mp (by rw [trim, trimEnd, List.reverse_reverse]; exact hback)

/-! ### Squeezing -/

theorem eq_space_of_mem_squeezeFrom {afterBlank : Bool} {t : Text} {c : Char}
    (h : c ∈ squeezeFrom afterBlank t) (hblank : isBlank c = true) : c = ' ' := by
  induction t generalizing afterBlank with
  | nil => cases h
  | cons d ds ih =>
    rw [squeezeFrom] at h
    split at h
    · split at h
      · exact ih h
      · rcases List.mem_cons.mp h with rfl | h
        · rfl
        · exact ih h
    · rename_i hd
      rcases List.mem_cons.mp h with rfl | h
      · exact absurd hblank hd
      · exact ih h

end Text

namespace Message

/-- The only blank character in the normal form of a message is the plain space. -/
theorem eq_space_of_mem_text {limit : Option Int} {raw : Text} {c : Char}
    (h : c ∈ (ofText limit raw).text) (hblank : Text.isBlank c = true) : c = ' ' := by
  -- Cutting and trimming only take characters away.
  have hcanonical : c ∈ Text.canonical raw := by
    rw [ofText] at h
    dsimp only [Text.cut] at h
    split at h
    · exact h
    · split at h
      · exact (Text.slice_infix _ _ _).mem (Text.mem_of_mem_trimEnd h)
      · exact h
  exact Text.eq_space_of_mem_squeezeFrom (Text.mem_of_mem_trim hcanonical) hblank

theorem feed_not_mem_text (limit : Option Int) (raw : Text) : '\n' ∉ (ofText limit raw).text :=
  fun h => absurd (eq_space_of_mem_text h (by decide)) (by decide)

end Message

end Passcode
