import Passcode.Message
import Passcode.Text.Lines

/-!
# Breaks — how the lines of a file end does not show in a normal form

A normal form knows no line ends: all of them are blanks, so writing each one as a line feed changes
nothing (`canonical_unifyBreaks`).  Nor does it know a byte order mark, which has no width
(`canonical_mark`).
-/

namespace Passcode.Text

/-- The text without marks of no width and with plain digits. -/
def cleaned (raw : Text) : Text := foldDigits (raw.filter (fun c => !isZeroWidth c))

theorem cleaned_cons {c : Char} (h : isZeroWidth c = false) (raw : Text) :
    cleaned (c :: raw) = foldDigit c :: cleaned raw := by
  rw [cleaned, List.filter_cons_of_pos (by rw [h]; rfl)]
  rfl

theorem cleaned_cons_mark {c : Char} (h : isZeroWidth c = true) (raw : Text) :
    cleaned (c :: raw) = cleaned raw := by
  rw [cleaned, List.filter_cons_of_neg (by rw [h]; exact Bool.false_ne_true)]
  rfl

theorem canonical_eq_cleaned (raw : Text) : canonical raw = trim (squeeze (cleaned raw)) := rfl

/-! ### Squeezing line ends -/

/-- Which blank it is does not matter to squeezing. -/
theorem squeezeFrom_blank {c d : Char} (hc : isBlank c = true) (hd : isBlank d = true)
    {s t : Text} (h : ∀ b, squeezeFrom b s = squeezeFrom b t) (afterBlank : Bool) :
    squeezeFrom afterBlank (c :: s) = squeezeFrom afterBlank (d :: t) := by
  rw [squeezeFrom, squeezeFrom, if_pos hc, if_pos hd, h]

/-- Two blanks in a row are squeezed like one. -/
theorem squeezeFrom_blanks {c d : Char} (hc : isBlank c = true) (hd : isBlank d = true)
    (afterBlank : Bool) (t : Text) :
    squeezeFrom afterBlank (c :: d :: t) = squeezeFrom afterBlank (d :: t) := by
  cases afterBlank <;> simp only [squeezeFrom, hc, hd, if_true, Bool.false_eq_true, if_false]

theorem squeezeFrom_cons {c : Char} {s t : Text} (h : ∀ b, squeezeFrom b s = squeezeFrom b t)
    (afterBlank : Bool) : squeezeFrom afterBlank (c :: s) = squeezeFrom afterBlank (c :: t) := by
  rw [squeezeFrom, squeezeFrom, h, h]

theorem squeezeFrom_unifyBreaks (raw : Text) (afterBlank : Bool) :
    squeezeFrom afterBlank (cleaned (unifyBreaks raw)) = squeezeFrom afterBlank (cleaned raw) := by
  have hfeed : ∀ t, cleaned ('\n' :: t) = '\n' :: cleaned t := cleaned_cons (by decide)
  have hreturn : ∀ t, cleaned ('\r' :: t) = '\r' :: cleaned t := cleaned_cons (by decide)
  induction raw using unifyBreaks.induct generalizing afterBlank with
  | case1 => rfl
  | case2 cs ih =>
    rw [unifyBreaks, hfeed, hreturn, hfeed, squeezeFrom_blanks (by decide) (by decide)]
    exact squeezeFrom_cons ih afterBlank
  | case3 c cs hpair ih =>
    rw [unifyBreaks.eq_3 _ _ hpair]
    by_cases hc : c = '\r'
    · rw [if_pos hc, hc, hfeed, hreturn]
      exact squeezeFrom_blank (by decide) (by decide) ih afterBlank
    · rw [if_neg hc]
      cases hmark : isZeroWidth c with
      | true => rw [cleaned_cons_mark hmark, cleaned_cons_mark hmark]; exact ih afterBlank
      | false =>
        rw [cleaned_cons hmark, cleaned_cons hmark]
        exact squeezeFrom_cons ih afterBlank

/-- **Line ends** do not show in the normal form. -/
theorem canonical_unifyBreaks (raw : Text) : canonical (unifyBreaks raw) = canonical raw := by
  rw [canonical_eq_cleaned, canonical_eq_cleaned, squeeze, squeeze, squeezeFrom_unifyBreaks]

/-- **A byte order mark** at the start does not show in the normal form. -/
theorem canonical_mark (raw : Text) : canonical ('\uFEFF' :: raw) = canonical raw := by
  rw [canonical_eq_cleaned, canonical_eq_cleaned, cleaned_cons_mark (by decide)]

end Passcode.Text
