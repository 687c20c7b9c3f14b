import Passcode.Proofs.Text.Lowercase
import Passcode.Text.Blank

/-!
# Fixed — what is in lowercase stays as it is

The lowercase forms of the table lie outside of all its stretches, and none of them is blank; this
is checked stretch against stretch (`target_of_mem_table`).  So each character of a lowercase text
is its own lowercase form (`fixed_of_mem_lowerFrom`), no capital sigma is among them, and
lowercasing twice is lowercasing once (`lower_lower`).

Lowercasing puts no blank at either end of a text (`head_lower`, `getLast_lower`).
-/

namespace Passcode.Text

/-- The character is its own lowercase form. -/
def IsFixed (c : Char) : Prop := lowerForm c = [c]

instance (c : Char) : Decidable (IsFixed c) := inferInstanceAs (Decidable (_ = _))

/-! ### The table -/

namespace CaseStretch

/-- `n` is one of the numbers of the stretch. -/
def Holds (s : CaseStretch) (n : Nat) : Prop :=
  s.first ≤ n ∧ n ≤ s.last ∧ (n - s.first) % s.step = 0

/-- The stretch of the numbers `shift` places further on. -/
def target (s : CaseStretch) : CaseStretch :=
  ⟨(s.first + s.shift).toNat, (s.last + s.shift).toNat, s.step, 0⟩

/-- The second stretch starts behind the first, or ends before it, or both have every second number
and interleave. -/
def apart (s s' : CaseStretch) : Bool :=
  Nat.blt s.last s'.first || Nat.blt s'.last s.first ||
    ((Nat.beq s.step 2 || Nat.beq s.first s.last) && Nat.beq s'.step 2 &&
      Nat.beq ((s.first + s'.first) % 2) 1)

/-- What a stretch maps its numbers to lies in its target. -/
theorem holds_target {s : CaseStretch} (h : 0 ≤ s.first + s.shift) {n : Nat} (hn : s.Holds n) :
    s.target.Holds (n + s.shift).toNat := by
  obtain ⟨hlow, hhigh, hstep⟩ := hn
  refine ⟨?_, ?_, ?_⟩
  · simp only [target]; omega
  · simp only [target]; omega
  · have hdiff : (n + s.shift).toNat - (s.first + s.shift).toNat = n - s.first := by omega
    simp only [target, hdiff, hstep]

/-- Stretches that are apart share no number. -/
theorem not_holds_of_apart {s s' : CaseStretch} (h : s.apart s' = true) {n : Nat}
    (hn : s.Holds n) : ¬ s'.Holds n := by
  rintro ⟨hlow', hhigh', hstep'⟩
  obtain ⟨hlow, hhigh, hstep⟩ := hn
  simp only [apart, Bool.or_eq_true, Bool.and_eq_true, Nat.blt_eq, Nat.beq_eq] at h
  rcases h with (h | h) | ⟨⟨h | h, h'⟩, hodd⟩
  · omega
  · omega
  · rw [h] at hstep; rw [h'] at hstep'; omega
  · rw [h'] at hstep'; omega

end CaseStretch

/-- A shift that is not zero is that of a stretch of the table. -/
theorem caseShift_cases (stretches : List CaseStretch) (n : Nat) :
    caseShift stretches n = 0 ∨
      ∃ s ∈ stretches, s.Holds n ∧ caseShift stretches n = s.shift := by
  induction stretches with
  | nil => exact .inl rfl
  | cons s rest ih =>
    rw [caseShift]
    split
    · exact .inl rfl
    · rename_i hfirst
      split
      · rename_i hlast
        split
        · rename_i hstep
          exact .inr ⟨s, List.mem_cons_self, ⟨Nat.not_lt.mp hfirst, hlast, hstep⟩, rfl⟩
        · exact .inl rfl
      · rcases ih with h | ⟨s', hs', h⟩
        · exact .inl h
        · exact .inr ⟨s', List.mem_cons_of_mem _ hs', h⟩

/-- A number that is covered by ranges lies in one of them. -/
theorem exists_of_covers {ranges : Ranges} {n : Nat} (h : ranges.covers n = true) :
    ∃ r ∈ ranges, CaseStretch.Holds ⟨r.1, r.2, 1, 0⟩ n := by
  induction ranges with
  | nil => cases h
  | cons r rest ih =>
    rw [Ranges.covers] at h
    split at h
    · cases h
    · rename_i hfirst
      split at h
      · rename_i hlast
        exact ⟨r, List.mem_cons_self, Nat.not_lt.mp hfirst, hlast, Nat.mod_one _⟩
      · obtain ⟨r', hr', h'⟩ := ih h
        exact ⟨r', List.mem_cons_of_mem _ hr', h'⟩

/-- The numbers among which there is no lowercase form of a capital: those of the dotted capital I,
of the surrogates, of the blanks, and of the capitals themselves. -/
def notLowercase : List CaseStretch :=
  ⟨0x130, 0x130, 1, 0⟩ :: ⟨0xD800, 0xDFFF, 1, 0⟩ ::
    blankRanges.map (fun r => ⟨r.1, r.2, 1, 0⟩) ++ lowercaseStretches

/-- What the table says of its lowercase forms, checked stretch by stretch. -/
theorem target_of_mem_table : lowercaseStretches.all (fun s =>
    decide (0 ≤ s.first + s.shift) && Nat.blt s.target.last 0x110000 &&
      notLowercase.all s.target.apart) = true := by decide +kernel

theorem toNat_ofNat {n : Nat} (h : n.isValidChar) : (Char.ofNat n).toNat = n := by
  rw [Char.ofNat, dif_pos h]
  rfl

/-- A character outside all stretches is its own lowercase form and no blank. -/
theorem fixed_of_outside {n : Nat} (hlast : n < 0x110000)
    (hout : ∀ s ∈ notLowercase, ¬ s.Holds n) :
    IsFixed (Char.ofNat n) ∧ isBlank (Char.ofNat n) = false := by
  have hdotted := hout ⟨0x130, 0x130, 1, 0⟩ (List.mem_append_left _ List.mem_cons_self)
  have hsurrogate := hout ⟨0xD800, 0xDFFF, 1, 0⟩
    (List.mem_append_left _ (List.mem_cons_of_mem _ List.mem_cons_self))
  simp only [CaseStretch.Holds, Nat.mod_one, and_true] at hdotted hsurrogate
  have hnat : (Char.ofNat n).toNat = n := toNat_ofNat (by unfold Nat.isValidChar; omega)
  have hshift : caseShift lowercaseStretches n = 0 := by
    rcases caseShift_cases lowercaseStretches n with h | ⟨s, hs, hholds, -⟩
    · exact h
    · exact absurd hholds (hout s (List.mem_append_right _ hs))
  have hne : Char.ofNat n ≠ dottedI := by
    intro h
    have hval : n = 0x130 := by rw [← hnat, h]; decide
    omega
  constructor
  · rw [IsFixed, lowerForm, if_neg hne, lowerChar, hnat, hshift, Int.add_zero, Int.toNat_natCast]
  · refine Bool.eq_false_iff.mpr fun hblank => ?_
    rw [isBlank, hnat] at hblank
    obtain ⟨r, hr, hholds⟩ := exists_of_covers hblank
    exact hout _ (List.mem_append_left _
      (List.mem_cons_of_mem _ (List.mem_cons_of_mem _ (List.mem_map_of_mem hr)))) hholds

/-- Lowercasing leaves a character as it is, or makes it one that it leaves as it is and that is not
blank. -/
theorem lowerChar_cases (c : Char) :
    lowerChar c = c ∨ IsFixed (lowerChar c) ∧ isBlank (lowerChar c) = false := by
  rcases caseShift_cases lowercaseStretches c.toNat with h | ⟨s, hs, hc, h⟩
  · left
    rw [lowerChar, h, Int.add_zero, Int.toNat_natCast, Char.ofNat_toNat]
  · right
    have htable := List.all_eq_true.mp target_of_mem_table s hs
    simp only [Bool.and_eq_true, decide_eq_true_eq, Nat.blt_eq] at htable
    obtain ⟨⟨hlow, hhigh⟩, hall⟩ := htable
    have hn := CaseStretch.holds_target hlow hc
    rw [lowerChar, h]
    exact fixed_of_outside (Nat.lt_of_le_of_lt hn.2.1 hhigh) fun s' hs' =>
      CaseStretch.not_holds_of_apart (List.all_eq_true.mp hall s' hs') hn

/-! ### Lowercase texts -/

theorem lowerForm_of_ne {c : Char} (h : c ≠ dottedI) : lowerForm c = [lowerChar c] := if_neg h

theorem mem_lowerForm_dottedI {x : Char} (h : x ∈ lowerForm dottedI) :
    x = 'i' ∨ x = '\u0307' := by
  have hform : lowerForm dottedI = ['i', '\u0307'] := if_pos rfl
  rw [hform, List.mem_cons, List.mem_singleton] at h
  exact h

/-- What a lowercase form consists of is its own lowercase form. -/
theorem fixed_of_mem_lowerForm {c x : Char} (h : x ∈ lowerForm c) : IsFixed x := by
  by_cases hdotted : c = dottedI
  · subst hdotted
    rcases mem_lowerForm_dottedI h with rfl | rfl
    · decide +kernel
    · decide +kernel
  · rw [lowerForm_of_ne hdotted, List.mem_singleton] at h
    subst h
    rcases lowerChar_cases c with hsame | ⟨hfixed, -⟩
    · rw [hsame, IsFixed, lowerForm_of_ne hdotted, hsame]
    · exact hfixed

/-- The lowercase form of what is no blank has no blank. -/
theorem isBlank_of_mem_lowerForm {c x : Char} (h : x ∈ lowerForm c) (hc : isBlank c = false) :
    isBlank x = false := by
  by_cases hdotted : c = dottedI
  · subst hdotted
    rcases mem_lowerForm_dottedI h with rfl | rfl
    · decide +kernel
    · decide +kernel
  · rw [lowerForm_of_ne hdotted, List.mem_singleton] at h
    subst h
    rcases lowerChar_cases c with hsame | ⟨-, hblank⟩
    · rw [hsame]; exact hc
    · exact hblank

/-- What lowercasing writes for a character is its lowercase form or, for a capital sigma, the final
one. -/
theorem lowerFrom_cons (casedBefore : Bool) (c : Char) (cs : Text) :
    ∃ form casedBefore', lowerFrom casedBefore (c :: cs) = form ++ lowerFrom casedBefore' cs ∧
      (form = lowerForm c ∨ c = capitalSigma ∧ form = [finalSigma]) := by
  refine ⟨_, _, rfl, ?_⟩
  split
  · rename_i h
    simp only [Bool.and_eq_true, decide_eq_true_eq] at h
    exact .inr ⟨h.1.1, rfl⟩
  · exact .inl rfl

theorem fixed_finalSigma : IsFixed finalSigma := by decide +kernel

/-- A lowercase text consists of characters that are their own lowercase form. -/
theorem fixed_of_mem_lowerFrom {casedBefore : Bool} {t : Text} {x : Char}
    (h : x ∈ lowerFrom casedBefore t) : IsFixed x := by
  induction t generalizing casedBefore with
  | nil => cases h
  | cons c cs ih =>
    obtain ⟨form, casedBefore', heq, hform⟩ := lowerFrom_cons casedBefore c cs
    rw [heq] at h
    rcases List.mem_append.mp h with h | h
    · rcases hform with rfl | ⟨-, rfl⟩
      · exact fixed_of_mem_lowerForm h
      · rw [List.mem_singleton.mp h]; exact fixed_finalSigma
    · exact ih h

/-- A text of characters that are their own lowercase forms is in lowercase. -/
theorem lowerFrom_of_fixed {casedBefore : Bool} {t : Text} (h : ∀ x ∈ t, IsFixed x) :
    lowerFrom casedBefore t = t := by
  induction t generalizing casedBefore with
  | nil => rfl
  | cons c cs ih =>
    have hc : IsFixed c := h c List.mem_cons_self
    obtain ⟨form, casedBefore', heq, hform⟩ := lowerFrom_cons casedBefore c cs
    rw [heq, ih fun x hx => h x (List.mem_cons_of_mem _ hx)]
    rcases hform with rfl | ⟨rfl, -⟩
    · rw [hc, List.singleton_append]
    · exact absurd hc (by decide +kernel)

/-- **Lowercasing twice is lowercasing once.** -/
theorem lower_lower (t : Text) : lower (lower t) = lower t :=
  lowerFrom_of_fixed fun _ => fixed_of_mem_lowerFrom

/-! ### The ends of a lowercase text -/

/-- What lowercasing writes for a character that is not blank starts and ends with none. -/
theorem ends_of_form {c : Char} {form : Text} (hc : isBlank c = false)
    (hform : form = lowerForm c ∨ c = capitalSigma ∧ form = [finalSigma]) :
    ∃ a z, form.head? = some a ∧ form.getLast? = some z ∧ isBlank a = false ∧
      isBlank z = false := by
  have hsolid : ∀ x ∈ form, isBlank x = false := by
    rcases hform with rfl | ⟨-, rfl⟩
    · exact fun x hx => isBlank_of_mem_lowerForm hx hc
    · exact List.forall_mem_singleton.mpr (by decide)
  have hne : form ≠ [] := by
    rcases hform with rfl | ⟨-, rfl⟩
    · unfold lowerForm
      split <;> exact List.cons_ne_nil _ _
    · exact List.cons_ne_nil _ _
  exact ⟨form.head hne, form.getLast hne, List.head?_eq_some_head hne,
    List.getLast?_eq_some_getLast hne, hsolid _ (List.head_mem hne),
    hsolid _ (List.getLast_mem hne)⟩

/-- A text that starts with no blank does so in lowercase. -/
theorem head_lower {t : Text} (h : ∀ c ∈ t.head?, isBlank c = false) :
    ∀ x ∈ (lower t).head?, isBlank x = false := by
  cases t with
  | nil => nofun
  | cons c cs =>
    obtain ⟨form, casedBefore', heq, hform⟩ := lowerFrom_cons false c cs
    obtain ⟨a, -, ha, -, hsolid, -⟩ := ends_of_form (h c rfl) hform
    rw [lower, heq, List.head?_append, ha]
    rintro _ ⟨⟩
    exact hsolid

/-- The lowercase form of a text is that of its beginning, followed by that of its rest behind some
context. -/
theorem lowerFrom_append (casedBefore : Bool) (s t : Text) :
    ∃ front casedBefore', lowerFrom casedBefore (s ++ t) = front ++ lowerFrom casedBefore' t := by
  induction s generalizing casedBefore with
  | nil => exact ⟨[], casedBefore, rfl⟩
  | cons c cs ih =>
    obtain ⟨form, casedBefore', heq, -⟩ := lowerFrom_cons casedBefore c (cs ++ t)
    obtain ⟨front, casedBefore'', hrest⟩ := ih casedBefore'
    exact ⟨form ++ front, casedBefore'', by rw [List.cons_append, heq, hrest, List.append_assoc]⟩

/-- A text that ends with no blank does so in lowercase. -/
theorem getLast_lower {t : Text} (h : ∀ c ∈ t.getLast?, isBlank c = false) :
    ∀ x ∈ (lower t).getLast?, isBlank x = false := by
  rcases List.eq_nil_or_concat t with rfl | ⟨init, c, rfl⟩
  · nofun
  · simp only [List.concat_eq_append] at h ⊢
    obtain ⟨front, casedBefore, heq⟩ := lowerFrom_append false init [c]
    obtain ⟨form, casedBefore', hone, hform⟩ := lowerFrom_cons casedBefore c []
    obtain ⟨-, z, -, hz, -, hsolid⟩ := ends_of_form (h c List.getLast?_concat) hform
    rw [lower, heq, hone, lowerFrom, List.append_nil, List.getLast?_append, hz]
    rintro _ ⟨⟩
    exact hsolid

end Passcode.Text
