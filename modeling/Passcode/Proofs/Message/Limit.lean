import Mathlib.Data.List.Chain
import Passcode.Proofs.Message

/-!
# Limits — the normal form of a normal form, and cuts that follow one another

`Text.IsNormal` says on its own what a normal form is: no marks of no width, no digits that could be
folded, no blanks but single spaces, and none at either end.  Every normal form is one
(`isNormal_canonical`), a text that is one is its own normal form (`IsNormal.canonical_eq`), and a
cut leaves one (`IsNormal.cut`), so bringing a normal form into normal form does no more than cut.

Two cuts are one at the tighter limit (`cut_cut`), although each trims what it leaves: all that the
first one trims is blank, and so is all of it that the second would have kept.  Both together give
`text_ofText_text`.
-/

namespace Passcode

namespace Text

/-! ### What a normal form is -/

/-- A text in normal form. -/
structure IsNormal (t : Text) : Prop where
  /-- No character is a mark of no width. -/
  visible : ∀ c ∈ t, isZeroWidth c = false
  /-- No character is a digit that could be folded. -/
  folded : ∀ c ∈ t, foldDigit c = c
  /-- Each blank is a plain space. -/
  plain : ∀ c ∈ t, isBlank c = true → c = ' '
  /-- No two blanks are neighbours. -/
  apart : t.IsChain (fun a b => isBlank a = true → isBlank b = false)
  first : ∀ c ∈ t.head?, isBlank c = false
  last : ∀ c ∈ t.getLast?, isBlank c = false

/-! ### Folding digits -/

/-- A folded digit is a plain one. -/
theorem foldDigit_eq_or (c : Char) :
    foldDigit c = c ∨ ∃ k < 10, foldDigit c = Char.ofNat (48 + k) := by
  unfold foldDigit
  split
  · rename_i z hz
    have hrange := List.find?_some hz
    simp only [Bool.and_eq_true, decide_eq_true_eq] at hrange
    exact .inr ⟨c.toNat - z, by omega, rfl⟩
  · exact .inl rfl

/-- A plain digit is no mark of no width, and stays as it is. -/
theorem plain_digit : ∀ k < 10,
    foldDigit (Char.ofNat (48 + k)) = Char.ofNat (48 + k) ∧
      isZeroWidth (Char.ofNat (48 + k)) = false := by decide

/-- Digits are folded once and for all. -/
theorem foldDigit_foldDigit (c : Char) : foldDigit (foldDigit c) = foldDigit c := by
  rcases foldDigit_eq_or c with h | ⟨k, hk, h⟩
  · rw [h, h]
  · rw [h]; exact (plain_digit k hk).1

theorem isZeroWidth_foldDigit {c : Char} (h : isZeroWidth c = false) :
    isZeroWidth (foldDigit c) = false := by
  rcases foldDigit_eq_or c with hc | ⟨k, hk, hc⟩
  · rw [hc]; exact h
  · rw [hc]; exact (plain_digit k hk).2

/-! ### Squeezing -/

/-- Squeezing brings in no character but the space. -/
theorem mem_of_mem_squeezeFrom {afterBlank : Bool} {t : Text} {c : Char}
    (h : c ∈ squeezeFrom afterBlank t) : c = ' ' ∨ c ∈ t := by
  induction t generalizing afterBlank with
  | nil => cases h
  | cons d ds ih =>
    have later : ∀ {b : Bool}, c ∈ squeezeFrom b ds → c = ' ' ∨ c ∈ d :: ds :=
      fun h => (ih h).imp_right (List.mem_cons_of_mem _)
    rw [squeezeFrom] at h
    split at h
    · split at h
      · exact later h
      · rcases List.mem_cons.mp h with rfl | h
        · exact .inl rfl
        · exact later h
    · rcases List.mem_cons.mp h with rfl | h
      · exact .inr List.mem_cons_self
      · exact later h

/-- Behind a blank a squeezed text starts with none. -/
theorem head_squeezeFrom_true (t : Text) :
    ∀ c ∈ (squeezeFrom true t).head?, isBlank c = false := by
  induction t with
  | nil => nofun
  | cons d ds ih =>
    cases hd : isBlank d with
    | true => rw [squeezeFrom, if_pos hd]; exact ih
    | false =>
      rw [squeezeFrom, if_neg (by rw [hd]; exact Bool.false_ne_true)]
      intro c hc
      cases hc
      exact hd

/-- In a squeezed text no blank stands behind a blank. -/
theorem isChain_squeezeFrom (afterBlank : Bool) (t : Text) :
    (squeezeFrom afterBlank t).IsChain (fun a b => isBlank a = true → isBlank b = false) := by
  induction t generalizing afterBlank with
  | nil => exact .nil
  | cons d ds ih =>
    cases hd : isBlank d with
    | true =>
      rw [squeezeFrom, if_pos hd]
      split
      · exact ih true
      · exact List.isChain_cons.mpr ⟨fun c hc _ => head_squeezeFrom_true ds c hc, ih true⟩
    | false =>
      rw [squeezeFrom, if_neg (by rw [hd]; exact Bool.false_ne_true)]
      exact List.isChain_cons.mpr
        ⟨fun _ _ hblank => absurd (hd.symm.trans hblank) Bool.false_ne_true, ih false⟩

/-- Single spaces stay as they are. -/
theorem squeezeFrom_eq {afterBlank : Bool} {t : Text}
    (hplain : ∀ c ∈ t, isBlank c = true → c = ' ')
    (hapart : t.IsChain (fun a b => isBlank a = true → isBlank b = false))
    (hhead : afterBlank = true → ∀ c ∈ t.head?, isBlank c = false) :
    squeezeFrom afterBlank t = t := by
  induction t generalizing afterBlank with
  | nil => rfl
  | cons d ds ih =>
    obtain ⟨hnext, hrest⟩ := List.isChain_cons.mp hapart
    have hds := fun c hc => hplain c (List.mem_cons_of_mem _ hc)
    cases hd : isBlank d with
    | true =>
      have hfirst : ¬ afterBlank = true := fun h =>
        absurd ((hhead h d rfl).symm.trans hd) Bool.false_ne_true
      rw [squeezeFrom, if_pos hd, if_neg hfirst,
        ih hds hrest (fun _ c hc => hnext c hc hd), hplain d List.mem_cons_self hd]
    | false =>
      rw [squeezeFrom, if_neg (by rw [hd]; exact Bool.false_ne_true),
        ih hds hrest (fun h => absurd h Bool.false_ne_true)]

/-! ### Trimming -/

/-- A trimmed text does not start with a blank. -/
theorem head_trimStart (t : Text) : ∀ c ∈ (trimStart t).head?, isBlank c = false := by
  intro c hc
  have hnot := List.head?_dropWhile_not isBlank t
  rw [← trimStart, hc] at hnot
  exact hnot

/-- A trimmed text does not end with a blank. -/
theorem getLast_trimEnd (t : Text) : ∀ c ∈ (trimEnd t).getLast?, isBlank c = false := by
  intro c hc
  rw [trimEnd, List.getLast?_reverse] at hc
  exact head_trimStart t.reverse c hc

theorem trimStart_eq {t : Text} (h : ∀ c ∈ t.head?, isBlank c = false) : trimStart t = t := by
  cases t with
  | nil => rfl
  | cons c cs =>
    exact List.dropWhile_cons_of_neg (by rw [h c rfl]; exact Bool.false_ne_true)

theorem trimEnd_eq {t : Text} (h : ∀ c ∈ t.getLast?, isBlank c = false) : trimEnd t = t := by
  have hback : trimStart t.reverse = t.reverse :=
    trimStart_eq (by rw [List.head?_reverse]; exact h)
  rw [trimEnd, ← trimStart, hback, List.reverse_reverse]

/-- What trimming the end takes away is blank. -/
theorem exists_eq_trimEnd_append (t : Text) :
    ∃ blanks, t = trimEnd t ++ blanks ∧ ∀ c ∈ blanks, isBlank c = true := by
  refine ⟨(t.reverse.takeWhile isBlank).reverse, ?_, fun c hc => ?_⟩
  · rw [trimEnd, ← List.reverse_append, List.takeWhile_append_dropWhile, List.reverse_reverse]
  · exact List.all_eq_true.mp List.all_takeWhile c (List.mem_reverse.mp hc)

theorem trimEnd_isPrefix (t : Text) : trimEnd t <+: t := by
  obtain ⟨blanks, h, -⟩ := exists_eq_trimEnd_append t
  exact ⟨blanks, h.symm⟩

/-- Blanks at the end of a text are trimmed away. -/
theorem trimEnd_append_blanks (t : Text) {blanks : Text} (h : ∀ c ∈ blanks, isBlank c = true) :
    trimEnd (t ++ blanks) = trimEnd t := by
  rw [trimEnd, trimEnd, List.reverse_append,
    List.dropWhile_append_of_pos (fun c hc => h c (List.mem_reverse.mp hc))]

/-! ### The normal form is normal -/

theorem trim_isInfix (t : Text) : trim t <:+: t :=
  (trimEnd_isPrefix _).isInfix.trans (List.dropWhile_suffix _).isInfix

/-- A prefix of a trimmed text starts with no blank either. -/
theorem head_of_prefix {s t : Text} (h : s <+: t) (ht : ∀ c ∈ t.head?, isBlank c = false) :
    ∀ c ∈ s.head?, isBlank c = false := by
  obtain ⟨rest, rfl⟩ := h
  cases s with
  | nil => nofun
  | cons d ds => exact ht

/-- What is brought into normal form is in normal form. -/
theorem isNormal_canonical (raw : Text) : IsNormal (canonical raw) := by
  have hmem : ∀ c ∈ canonical raw,
      c = ' ' ∨ ∃ d, isZeroWidth d = false ∧ foldDigit d = c := by
    intro c hc
    rcases mem_of_mem_squeezeFrom (mem_of_mem_trim hc) with h | h
    · exact .inl h
    · obtain ⟨d, hd, hfold⟩ := List.mem_map.mp h
      exact .inr ⟨d, by simpa using (List.mem_filter.mp hd).2, hfold⟩
  exact {
    visible := by
      intro c hc
      rcases hmem c hc with rfl | ⟨d, hd, rfl⟩
      · decide
      · exact isZeroWidth_foldDigit hd
    folded := by
      intro c hc
      rcases hmem c hc with rfl | ⟨d, -, rfl⟩
      · decide
      · exact foldDigit_foldDigit d
    plain := fun c hc => eq_space_of_mem_squeezeFrom (mem_of_mem_trim hc)
    apart := List.IsChain.infix (isChain_squeezeFrom false _) (trim_isInfix _)
    first := head_of_prefix (trimEnd_isPrefix _) (head_trimStart _)
    last := getLast_trimEnd _ }

namespace IsNormal

variable {t : Text}

theorem trim_eq (h : IsNormal t) : trim t = t := by
  rw [trim, trimStart_eq h.first, trimEnd_eq h.last]

/-- A normal form is its own normal form. -/
theorem canonical_eq (h : IsNormal t) : canonical t = t := by
  have hfilter : t.filter (fun c => !isZeroWidth c) = t :=
    List.filter_eq_self.mpr fun c hc => by rw [h.visible c hc]; rfl
  have hfold : foldDigits t = t :=
    (List.map_congr_left h.folded).trans (List.map_id t)
  have hsqueeze : squeeze t = t :=
    squeezeFrom_eq h.plain h.apart (fun h => absurd h Bool.false_ne_true)
  rw [canonical, hfilter, hfold, hsqueeze, h.trim_eq]

/-- A prefix of a normal form whose end is trimmed is a normal form. -/
theorem trimEnd_of_prefix (h : IsNormal t) {s : Text} (hs : s <+: t) : IsNormal (trimEnd s) := by
  have hpre : trimEnd s <+: t := (trimEnd_isPrefix s).trans hs
  exact {
    visible := fun c hc => h.visible c (hpre.mem hc)
    folded := fun c hc => h.folded c (hpre.mem hc)
    plain := fun c hc => h.plain c (hpre.mem hc)
    apart := List.IsChain.prefix h.apart hpre
    first := head_of_prefix hpre h.first
    last := getLast_trimEnd s }

end IsNormal

/-! ### Limits -/

/-- A limit as a bound, none where there is no limit. -/
def boundAt (limit : Option Nat) : Option Int := limit.map Int.ofNat

/-- The tighter of two limits; where one is missing it is the other. -/
def tighter : Option Nat → Option Nat → Option Nat
  | none, n => n
  | m, none => m
  | some m, some n => some (min m n)

theorem tighter_self (n : Option Nat) : tighter n n = n := by
  cases n <;> simp [tighter]

/-- The first so many characters, all of them where there is no limit. -/
def takeUpTo (limit : Option Nat) (t : Text) : Text := limit.elim t t.take

/-- Two limits, one after the other, are the tighter one. -/
theorem takeUpTo_takeUpTo (m n : Option Nat) (t : Text) :
    takeUpTo m (takeUpTo n t) = takeUpTo (tighter m n) t := by
  cases m <;> cases n <;> simp [takeUpTo, tighter, List.take_take]

theorem takeUpTo_isPrefix (limit : Option Nat) (t : Text) : takeUpTo limit t <+: t := by
  cases limit with
  | none => exact List.prefix_refl t
  | some n => exact List.take_prefix n t

/-- What is kept of trailing blanks is blank. -/
theorem takeUpTo_append_blanks (limit : Option Nat) (t : Text) {blanks : Text}
    (h : ∀ c ∈ blanks, isBlank c = true) :
    ∃ kept : Text, takeUpTo limit (t ++ blanks) = takeUpTo limit t ++ kept ∧
      ∀ c ∈ kept, isBlank c = true := by
  cases limit with
  | none => exact ⟨blanks, rfl, h⟩
  | some n => exact ⟨blanks.take (n - t.length), List.take_append, fun c hc =>
      h c (List.mem_of_mem_take hc)⟩

/-- A text that ends with no blank is cut by trimming what is kept of it. -/
theorem cut_eq {t : Text} (h : ∀ c ∈ t.getLast?, isBlank c = false) (limit : Option Nat) :
    cut (boundAt limit) t = trimEnd (takeUpTo limit t) := by
  cases limit with
  | none => exact (trimEnd_eq h).symm
  | some n =>
    show (if (n : Int) < t.length then trimEnd (slice t 0 n) else t) = trimEnd (t.take n)
    by_cases hn : n < t.length
    · have hslice := slice_natCast t 0 n
      rw [if_pos (by omega)]
      exact congrArg trimEnd hslice
    · rw [if_neg (by omega), List.take_of_length_le (by omega), trimEnd_eq h]

/-- A text in normal form is still in normal form when it is cut. -/
theorem IsNormal.cut {t : Text} (h : IsNormal t) (limit : Option Nat) :
    IsNormal (cut (boundAt limit) t) := by
  rw [cut_eq h.last]
  exact h.trimEnd_of_prefix (takeUpTo_isPrefix limit t)

/-- **Two cuts are one** at the tighter limit. -/
theorem cut_cut {t : Text} (h : ∀ c ∈ t.getLast?, isBlank c = false) (m n : Option Nat) :
    Text.cut (boundAt m) (Text.cut (boundAt n) t) = Text.cut (boundAt (tighter m n)) t := by
  obtain ⟨blanks, hsplit, hblanks⟩ := exists_eq_trimEnd_append (takeUpTo n t)
  obtain ⟨kept, hkept, hall⟩ := takeUpTo_append_blanks m (trimEnd (takeUpTo n t)) hblanks
  calc Text.cut (boundAt m) (Text.cut (boundAt n) t)
      = trimEnd (takeUpTo m (trimEnd (takeUpTo n t))) := by
        rw [cut_eq h n, cut_eq (getLast_trimEnd _) m]
    _ = trimEnd (takeUpTo m (trimEnd (takeUpTo n t) ++ blanks)) := by
        rw [hkept, trimEnd_append_blanks _ hall]
    _ = trimEnd (takeUpTo (tighter m n) t) := by rw [← hsplit, takeUpTo_takeUpTo]
    _ = Text.cut (boundAt (tighter m n)) t := (cut_eq h _).symm

end Text

namespace Message

open Text

/-- The text of a message is its normal form, cut to the limit. -/
theorem text_ofText (limit : Option Nat) (raw : Text) :
    (ofText (boundAt limit) raw).text = cut (boundAt limit) (canonical raw) := rfl

theorem lower_ofText (limit : Option Int) (raw : Text) :
    (ofText limit raw).lower = lowerAligned (ofText limit raw).text := rfl

/-- A limit that is no less than the length leaves a normal form as it is. -/
theorem text_ofText_self {limit : Option Int} {t : Text} (h : Text.canonical t = t)
    (hlimit : ∀ n ∈ limit, (t.length : Int) ≤ n) : (ofText limit t).text = t := by
  show Text.cut limit (Text.canonical t) = t
  rw [h]
  cases limit with
  | none => rfl
  | some n => exact if_neg (Int.not_lt.mpr (hlimit n rfl))

/-- The normal form, under one limit, of a normal form under another is the normal form under the
tighter of the two. -/
theorem text_ofText_text (m n : Option Nat) (raw : Text) :
    (ofText (boundAt m) (ofText (boundAt n) raw).text).text =
      (ofText (boundAt (tighter m n)) raw).text := by
  have hnormal := isNormal_canonical raw
  rw [text_ofText, text_ofText n, (hnormal.cut n).canonical_eq, cut_cut hnormal.last, text_ofText]

end Message

end Passcode
