import Passcode.Noise

/-!
# Letters — words in any case

A character that is neither a capital nor the long s is the same letter as itself only
(`eq_of_sameLetter`), so blanks, spaces and digits are found as they stand.  Where a text starts
with a word in any case, each character of the word is met by the same letter of the text
(`startsLike_getElem?`), and where each is, the text starts with it (`startsLike_of_getElem?`).  A
word without digits occurs around digits only where it occurs before or behind them
(`occursLike_around`).
-/

namespace Passcode.Text

/-! ### Letters -/

/-- What is neither a capital nor the long s is a case of itself only. -/
theorem eq_of_sameLetter {p c : Char} (hupper : c.isUpper = false) (hlong : c ≠ '\u017F')
    (h : sameLetter p c = true) : p = c := by
  have hlower : c.toLower = c := dif_neg (of_decide_eq_false hupper)
  simp only [sameLetter, hlower, Bool.or_eq_true, Bool.and_eq_true, beq_iff_eq] at h
  rcases h with h | ⟨-, h⟩
  · exact h.symm
  · exact absurd h hlong

theorem eq_of_sameLetter_of_blank {p c : Char} (hc : isBlank c = true)
    (h : sameLetter p c = true) : p = c := by
  have hupper : c.isUpper = false := by
    refine decide_eq_false ?_
    rintro ⟨hlow, hhigh⟩
    have hlow' : 65 ≤ c.toNat := hlow
    have hhigh' : c.toNat ≤ 90 := hhigh
    simp only [isBlank, blankRanges, Ranges.covers] at hc
    grind
  exact eq_of_sameLetter hupper (fun hlong => absurd (hlong ▸ hc) (by decide)) h

theorem eq_of_sameLetter_of_digit {p c : Char} (hc : isAsciiDigit c = true)
    (h : sameLetter p c = true) : p = c := by
  have hupper : c.isUpper = false := by
    refine decide_eq_false ?_
    rintro ⟨hlow, -⟩
    have hlow' : 65 ≤ c.toNat := hlow
    have hhigh : c.toNat ≤ 57 := of_decide_eq_true ((Bool.and_eq_true _ _).mp hc).2
    omega
  exact eq_of_sameLetter hupper (fun hlong => absurd (hlong ▸ hc) (by decide)) h

theorem eq_space_of_toLower {c : Char} (h : c.toLower = ' ') : c = ' ' := by
  unfold Char.toLower at h
  split at h
  · rename_i hupper
    have hval := congrArg (fun d : Char => d.val.toNat) h
    have hlow : 65 ≤ c.val.toNat := UInt32.le_iff_toNat_le.mp hupper.1
    have hhigh : c.val.toNat ≤ 90 := UInt32.le_iff_toNat_le.mp hupper.2
    have hshift : ('a'.val - 'A'.val).toNat = 32 := by decide
    have hspace : (' ').val.toNat = 32 := by decide
    simp only [UInt32.toNat_add] at hval
    omega
  · exact h

/-- A space is the same letter as no other character. -/
theorem sameLetter_space {p c : Char} (h : sameLetter p c = true) : p = ' ' ↔ c = ' ' := by
  constructor
  · rintro rfl
    rcases Bool.or_eq_true_iff.mp h with h | h
    · exact eq_space_of_toLower (beq_iff_eq.mp h)
    · exact absurd ((Bool.and_eq_true _ _).mp h).1 (by decide)
  · rintro rfl; exact eq_of_sameLetter_of_blank (by decide) h

/-- Only the long s is a case of two characters. -/
theorem letter_unique {p q c : Char} (hp : p ≠ '\u017F') (hq : q ≠ '\u017F')
    (h : sameLetter p c = true) (h' : sameLetter q c = true) : p = q := by
  simp only [sameLetter, Bool.or_eq_true, Bool.and_eq_true, beq_iff_eq] at h h'
  have hlong : Char.toLower '\u017F' = '\u017F' := by decide
  rcases h with h | ⟨rfl, rfl⟩
  · rcases h' with h' | ⟨rfl, rfl⟩
    · exact h.symm.trans h'
    · exact absurd (h.symm.trans hlong) hp
  · rcases h' with h' | ⟨rfl, -⟩
    · exact absurd (h'.symm.trans hlong) hq
    · rfl

/-! ### Words -/

theorem startsLike_getElem? {word t : Text} (h : startsLike word t = true) {i : Nat}
    (hi : i < word.length) : ∃ c, t[i]? = some c ∧ sameLetter word[i] c = true := by
  induction word generalizing t i with
  | nil => exact absurd hi (Nat.not_lt_zero i)
  | cons p word ih =>
    cases t with
    | nil => exact absurd h Bool.false_ne_true
    | cons c cs =>
      obtain ⟨hp, hrest⟩ := (Bool.and_eq_true _ _).mp h
      cases i with
      | zero => exact ⟨c, rfl, hp⟩
      | succ i => exact ih hrest (Nat.lt_of_succ_lt_succ hi)

theorem startsLike_of_getElem? {word t : Text}
    (h : ∀ (i : Nat) (hi : i < word.length), ∃ c, t[i]? = some c ∧ sameLetter word[i] c = true) :
    startsLike word t = true := by
  induction word generalizing t with
  | nil => cases t <;> rfl
  | cons p word ih =>
    obtain ⟨c, hc, hp⟩ := h 0 (Nat.succ_pos _)
    cases t with
    | nil => cases hc
    | cons d ds =>
      cases hc
      refine (Bool.and_eq_true _ _).mpr ⟨hp, ih fun i hi => ?_⟩
      exact h (i + 1) (Nat.succ_lt_succ hi)

theorem length_le_of_startsLike {word t : Text} (h : startsLike word t = true) :
    word.length ≤ t.length := by
  induction word generalizing t with
  | nil => exact Nat.zero_le _
  | cons p word ih =>
    cases t with
    | nil => exact absurd h Bool.false_ne_true
    | cons c cs => exact Nat.succ_le_succ (ih ((Bool.and_eq_true _ _).mp h).2)

theorem exists_of_occursLike {p : Char} {ps t : Text} (h : occursLike (p :: ps) t = true) :
    ∃ c ∈ t, sameLetter p c = true := by
  induction t with
  | nil => cases h
  | cons c cs ih =>
    rw [occursLike, Bool.or_eq_true] at h
    rcases h with h | h
    · rw [startsLike, Bool.and_eq_true] at h
      exact ⟨c, List.mem_cons_self, h.1⟩
    · obtain ⟨d, hd, hsame⟩ := ih h
      exact ⟨d, List.mem_cons_of_mem _ hd, hsame⟩

theorem exists_drop_of_occursLike {word t : Text} (h : occursLike word t = true) :
    ∃ i, startsLike word (t.drop i) = true := by
  induction t with
  | nil =>
    obtain rfl : word = [] := List.isEmpty_iff.mp h
    exact ⟨0, rfl⟩
  | cons c cs ih =>
    rw [occursLike, Bool.or_eq_true] at h
    rcases h with h | h
    · exact ⟨0, h⟩
    · obtain ⟨i, hi⟩ := ih h
      exact ⟨i + 1, hi⟩

/-- What starts a part of a text occurs in the text. -/
theorem startsLike_eq_false_of_suffix {word t : Text} (h : occursLike word t = false) {c : Char}
    {cs : Text} (hsuffix : c :: cs <:+ t) : startsLike word (c :: cs) = false := by
  induction t with
  | nil => exact absurd (List.suffix_nil.mp hsuffix) (List.cons_ne_nil _ _)
  | cons d ds ih =>
    rw [occursLike, Bool.or_eq_false_iff] at h
    rcases List.suffix_cons_iff.mp hsuffix with heq | hsuffix
    · rw [heq]; exact h.1
    · exact ih h.2 hsuffix

/-! ### All characters of a text -/

/-- What is asked of all characters of a text is decided on them, not on all characters there
are. -/
instance decidableForallMem (t : Text) (P : Char → Prop) [DecidablePred P] :
    Decidable (∀ c ∈ t, P c) := List.decidableBAll P t

instance decidableForallMemOption (o : Option Char) (P : Char → Prop) [DecidablePred P] :
    Decidable (∀ c ∈ o, P c) := Option.decidableForallMem o

/-! ### Words beside digits -/

/-- There are ten plain digits. -/
theorem exists_of_digit {c : Char} (h : isAsciiDigit c = true) :
    ∃ k < 10, c = Char.ofNat (48 + k) := by
  obtain ⟨hlow, hhigh⟩ := Bool.and_eq_true_iff.mp h
  have hlow' : 48 ≤ c.toNat := UInt32.le_iff_toNat_le.mp (of_decide_eq_true hlow)
  have hhigh' : c.toNat ≤ 57 := UInt32.le_iff_toNat_le.mp (of_decide_eq_true hhigh)
  refine ⟨c.toNat - 48, by omega, ?_⟩
  rw [Nat.add_sub_cancel' hlow', Char.ofNat_toNat]

/-- What holds of the ten digits holds of each plain digit. -/
theorem of_digit {P : Char → Prop} (h : ∀ k < 10, P (Char.ofNat (48 + k))) {c : Char}
    (hc : isAsciiDigit c = true) : P c := by
  obtain ⟨k, hk, rfl⟩ := exists_of_digit hc
  exact h k hk

/-- No character of the word is a plain digit. -/
def DigitFree (word : Text) : Prop := ∀ p ∈ word, isAsciiDigit p = false

instance (word : Text) : Decidable (DigitFree word) := decidableForallMem word _

section DigitFree

variable {word t : Text} (hword : DigitFree word)

include hword

theorem DigitFree.not_sameLetter {p c : Char} (hp : p ∈ word) (hc : isAsciiDigit c = true) :
    sameLetter p c = false := by
  refine Bool.eq_false_iff.mpr fun hsame => ?_
  have hfree := hword p hp
  rw [eq_of_sameLetter_of_digit hc hsame, hc] at hfree
  cases hfree

/-- A word without digits does not reach over a digit. -/
theorem startsLike_append_of_digit (ht : ∀ c ∈ t.head?, isAsciiDigit c = true) (s : Text) :
    startsLike word (s ++ t) = startsLike word s := by
  induction s generalizing word with
  | nil =>
    cases word with
    | nil => cases t <;> rfl
    | cons p ps =>
      cases t with
      | nil => rfl
      | cons c cs =>
        calc startsLike (p :: ps) (c :: cs)
            = (sameLetter p c && startsLike ps cs) := rfl
          _ = false := by
            rw [hword.not_sameLetter List.mem_cons_self (ht c rfl), Bool.false_and]
  | cons a s ih =>
    cases word with
    | nil => rfl
    | cons p ps =>
      rw [List.cons_append, startsLike, startsLike,
        ih fun q hq => hword q (List.mem_cons_of_mem _ hq)]

/-- A word without digits that occurs around digits occurs before or behind them. -/
theorem occursLike_around {code : Text} (hne : word ≠ [])
    (hcode : ∀ c ∈ code, isAsciiDigit c = true) (hpos : code ≠ []) (before after : Text) :
    occursLike word (before ++ code ++ after) =
      (occursLike word before || occursLike word after) := by
  have hempty : occursLike word [] = false := List.isEmpty_eq_false_iff.mpr hne
  have hskip : occursLike word (code ++ after) = occursLike word after := by
    clear hpos
    induction code with
    | nil => rfl
    | cons c cs ih =>
      have hstart : startsLike word (c :: (cs ++ after)) = false := by
        have := startsLike_append_of_digit hword (t := c :: (cs ++ after))
          (fun d hd => by cases hd; exact hcode c List.mem_cons_self) []
        rw [List.nil_append] at this
        rw [this]
        cases word with
        | nil => exact absurd rfl hne
        | cons p ps => rfl
      rw [List.cons_append, occursLike, hstart, Bool.false_or,
        ih fun d hd => hcode d (List.mem_cons_of_mem _ hd)]
  have hhead : ∀ c ∈ (code ++ after).head?, isAsciiDigit c = true := by
    intro c hc
    cases code with
    | nil => exact absurd rfl hpos
    | cons d ds => cases hc; exact hcode c List.mem_cons_self
  rw [List.append_assoc, ← hskip]
  induction before with
  | nil => rw [List.nil_append, hempty, Bool.false_or]
  | cons b bs ih =>
    rw [List.cons_append, occursLike, occursLike, ih, ← List.cons_append,
      startsLike_append_of_digit hword hhead, Bool.or_assoc]

/-- A word without digits that stands around digits stands before or behind them. -/
theorem infix_around {before code after : Text} (hcode : ∀ c ∈ code, isAsciiDigit c = true)
    (hpos : code ≠ []) (h : word <:+: before ++ code ++ after) :
    word <:+: before ∨ word <:+: after := by
  by_cases hne : word = []
  · exact .inl (hne ▸ List.nil_infix)
  obtain ⟨s, t, heq⟩ := h
  have hword_pos := List.length_pos_iff.mpr hne
  have hcode_pos := List.length_pos_iff.mpr hpos
  rcases Nat.lt_or_ge before.length (s.length + word.length) with hover | hfront
  · rcases Nat.lt_or_ge s.length (before.length + code.length) with hreach | hback
    · -- Where the word meets the code stands a digit.
      obtain ⟨k, hk⟩ := Nat.exists_eq_add_of_le (Nat.le_max_left s.length before.length)
      obtain ⟨j, hj⟩ := Nat.exists_eq_add_of_le (Nat.le_max_right s.length before.length)
      have hkw : k < word.length := by omega
      have hjc : j < code.length := by omega
      have hget : word[k] = code[j] := by
        have hleft : (s ++ word ++ t)[s.length + k]? = some word[k] := by
          rw [List.append_assoc, List.getElem?_append_right (Nat.le_add_right _ _),
            Nat.add_sub_cancel_left, List.getElem?_append_left hkw, List.getElem?_eq_getElem hkw]
        have hright : (before ++ code ++ after)[before.length + j]? = some code[j] := by
          rw [List.append_assoc, List.getElem?_append_right (Nat.le_add_right _ _),
            Nat.add_sub_cancel_left, List.getElem?_append_left hjc, List.getElem?_eq_getElem hjc]
        rw [heq, ← hk, hj, hright] at hleft
        exact (Option.some.inj hleft).symm
      have hfree := hword word[k] (List.getElem_mem hkw)
      rw [hget, hcode _ (List.getElem_mem hjc)] at hfree
      cases hfree
    · refine .inr ((List.prefix_append word t).isInfix.trans (List.IsSuffix.isInfix ?_))
      refine List.suffix_of_suffix_length_le ⟨s, ?_⟩ (List.suffix_append (before ++ code) after) ?_
      · rw [← List.append_assoc, heq]
      · have := congrArg List.length heq
        simp only [List.length_append] at this ⊢
        omega
  · refine .inl ((List.suffix_append s word).isInfix.trans (List.IsPrefix.isInfix ?_))
    refine List.prefix_of_prefix_length_le ⟨t, heq⟩
      ⟨code ++ after, (List.append_assoc _ _ _).symm⟩ ?_
    rw [List.length_append]
    exact hfront

end DigitFree

end Passcode.Text
