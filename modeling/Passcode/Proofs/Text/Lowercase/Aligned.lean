import Mathlib.Data.List.Forall2
import Passcode.Proofs.Text.Lowercase.Fixed

/-!
# Aligned — the lowercase copy, index for index

In the lowercase copy of a text each character stands for the character of the text at its index:
it is the lowercase form of that character, the dotted capital I being kept, and for a capital sigma
either of the two small ones (`forall₂_lowerAligned`).

Which sigma it is depends on what stands around, and on whether a dotted capital I stands anywhere
in the text.  So the copy of a stretch without that letter is the lowercase form of the stretch
wherever the sigmas agree (`ReadAlike`, `lower_infix_of_readAlike`).  They do in every text if each
capital sigma of the stretch has, within the stretch, a cased character behind it or one that is not
cased before it, the characters that case ignores being passed over (`plainSigmas`,
`readAlike_of_plainSigmas`).
-/

namespace Passcode.Text

/-! ### The characters of the copy -/

/-- `x` may stand in the lowercase copy of a text where `c` stands in the text. -/
def Lowers (c x : Char) : Prop := x = lowerKept c ∨ c = capitalSigma ∧ x = finalSigma

theorem lowerForm_eq_kept {c : Char} (h : c ≠ dottedI) : lowerForm c = [lowerKept c] := by
  rw [lowerForm, if_neg h, lowerKept, if_neg h]

theorem forall₂_lowerFrom {casedBefore : Bool} {t : Text} (h : dottedI ∉ t) :
    List.Forall₂ Lowers t (lowerFrom casedBefore t) := by
  induction t generalizing casedBefore with
  | nil => exact .nil
  | cons c cs ih =>
    have hc : c ≠ dottedI := fun hc => h (hc ▸ List.mem_cons_self)
    obtain ⟨form, casedBefore', heq, hform⟩ := lowerFrom_cons casedBefore c cs
    have hrest : List.Forall₂ Lowers cs (lowerFrom casedBefore' cs) :=
      ih fun hmem => h (List.mem_cons_of_mem _ hmem)
    rw [heq]
    rcases hform with rfl | ⟨hsigma, rfl⟩
    · rw [lowerForm_eq_kept hc]; exact .cons (.inl rfl) hrest
    · exact .cons (.inr ⟨hsigma, rfl⟩) hrest

/-- Only the dotted capital I makes the lowercase form of a text longer. -/
theorem length_lowerFrom (casedBefore : Bool) (t : Text) :
    (lowerFrom casedBefore t).length = t.length + t.count dottedI := by
  induction t generalizing casedBefore with
  | nil => rfl
  | cons c cs ih =>
    obtain ⟨form, casedBefore', heq, hform⟩ := lowerFrom_cons casedBefore c cs
    have hlength : form.length = 1 + if c = dottedI then 1 else 0 := by
      rcases hform with rfl | ⟨rfl, rfl⟩
      · unfold lowerForm; split <;> rfl
      · rfl
    rw [heq, List.length_append, ih, hlength, List.length_cons, List.count_cons]
    simp only [beq_iff_eq]
    omega

theorem length_lower_eq_iff {t : Text} : (lower t).length = t.length ↔ dottedI ∉ t := by
  rw [lower, length_lowerFrom, ← List.count_eq_zero]
  omega

/-- **The lowercase copy, index for index.** -/
theorem forall₂_lowerAligned (t : Text) : List.Forall₂ Lowers t (lowerAligned t) := by
  unfold lowerAligned
  split
  · rename_i h
    exact forall₂_lowerFrom (length_lower_eq_iff.mp h)
  · exact List.forall₂_map_right_iff.mpr (List.forall₂_same.mpr fun _ _ => .inl rfl)

/-- Without capital sigmas the lowercase copy is made character by character. -/
theorem lowerAligned_eq_map {t : Text} (h : capitalSigma ∉ t) :
    lowerAligned t = t.map lowerKept := by
  have hcopy := forall₂_lowerAligned t
  generalize lowerAligned t = copy at hcopy
  induction hcopy with
  | nil => rfl
  | @cons c x cs xs hx _ ih =>
    rw [List.map_cons, ih fun hmem => h (List.mem_cons_of_mem _ hmem)]
    rcases hx with rfl | ⟨hsigma, -⟩
    · rfl
    · exact absurd (hsigma ▸ List.mem_cons_self) h

/-! ### The copy of a stretch -/

theorem exists_of_forall₂_append {α β : Type} {R : α → β → Prop} {s t : List α} {l : List β}
    (h : List.Forall₂ R (s ++ t) l) :
    ∃ x y, l = x ++ y ∧ List.Forall₂ R s x ∧ List.Forall₂ R t y := by
  induction s generalizing l with
  | nil => exact ⟨[], l, rfl, .nil, h⟩
  | cons a s ih =>
    cases h with
    | cons hhead htail =>
      obtain ⟨x, y, rfl, hx, hy⟩ := ih htail
      exact ⟨_ :: x, y, rfl, .cons hhead hx, hy⟩

/-- Two lowercase copies of a stretch are the same if their sigmas are. -/
theorem eq_of_lowers {word x y : Text} (hx : List.Forall₂ Lowers word x)
    (hy : List.Forall₂ Lowers word y)
    (h : ∀ i : Nat, word[i]? = some capitalSigma → x[i]? = y[i]?) : x = y := by
  induction hx generalizing y with
  | nil => cases hy; rfl
  | @cons c a cs as hc hcs ih =>
    cases hy with
    | @cons _ b _ bs hc' hcs' =>
      have hhead : a = b := by
        by_cases hsigma : c = capitalSigma
        · exact Option.some.inj (h 0 (congrArg some hsigma))
        · rcases hc with rfl | ⟨hc, -⟩
          · rcases hc' with rfl | ⟨hc', -⟩
            · rfl
            · exact absurd hc' hsigma
          · exact absurd hc hsigma
      rw [hhead, ih hcs' fun i hi => h (i + 1) hi]

/-- The word stands in the text at a place at which its capital sigmas have in the lowercase copy of
the text the forms that they have in the lowercase form of the word. -/
def ReadAlike (word t : Text) : Prop :=
  ∃ before behind : Text, t = before ++ word ++ behind ∧
    ∀ i : Nat, word[i]? = some capitalSigma →
      (lowerAligned t)[before.length + i]? = (lower word)[i]?

/-- A word without the dotted capital I is found in the lowercase copy of a text in which it is read
alike. -/
theorem lower_infix_of_readAlike {word t : Text} (hdotted : dottedI ∉ word)
    (h : ReadAlike word t) : lower word <:+: lowerAligned t := by
  obtain ⟨before, behind, rfl, hsigmas⟩ := h
  obtain ⟨front, back, hsplit, hfront, -⟩ :=
    exists_of_forall₂_append (forall₂_lowerAligned (before ++ word ++ behind))
  obtain ⟨x, y, rfl, hx, hy⟩ := exists_of_forall₂_append hfront
  have hsame : y = lower word := by
    refine eq_of_lowers hy (forall₂_lowerFrom hdotted) fun i hi => ?_
    have hlt : i < y.length := hy.length_eq ▸ (List.getElem?_eq_some_iff.mp hi).1
    rw [← hsigmas i hi, hsplit, hx.length_eq, List.append_assoc,
      List.getElem?_append_right (Nat.le_add_right _ _), Nat.add_sub_cancel_left,
      List.getElem?_append_left hlt]
  exact ⟨x, back, by rw [hsplit, hsame]⟩

/-! ### Words whose sigmas are plain -/

/-- Each capital sigma of the word has a cased character behind it, or one that is not cased before
it; `uncasedBefore` says that one that is not cased comes before the word. -/
def plainSigmasFrom : Bool → Text → Bool
  | _, [] => true
  | uncasedBefore, c :: cs =>
    (c != capitalSigma || uncasedBefore || casedAhead cs) &&
      plainSigmasFrom (if isCaseIgnorable c then uncasedBefore else !isCased c) cs

/-- Each capital sigma of the word is plain whatever stands around the word. -/
def plainSigmas (word : Text) : Bool := plainSigmasFrom false word

theorem casedAhead_append {s : Text} (t : Text) (h : casedAhead s = true) :
    casedAhead (s ++ t) = true := by
  induction s with
  | nil => cases h
  | cons c cs ih =>
    rw [casedAhead] at h
    rw [List.cons_append, casedAhead]
    split
    · rename_i hc
      rw [if_pos hc] at h
      exact ih h
    · rename_i hc
      rwa [if_neg hc] at h

/-- A word whose sigmas are plain is lowercased character by character, whatever stands around. -/
theorem lowerFrom_of_plainSigmas (uncasedBefore casedBefore : Bool) {word : Text}
    (hbefore : uncasedBefore = true → casedBefore = false) (hdotted : dottedI ∉ word)
    (h : plainSigmasFrom uncasedBefore word = true) (behind : Text) :
    ∃ casedBefore', lowerFrom casedBefore (word ++ behind) =
      word.map lowerKept ++ lowerFrom casedBefore' behind := by
  induction word generalizing uncasedBefore casedBefore with
  | nil => exact ⟨casedBefore, rfl⟩
  | cons c cs ih =>
    have hc : c ≠ dottedI := fun hc => hdotted (hc ▸ List.mem_cons_self)
    rw [plainSigmasFrom, Bool.and_eq_true] at h
    obtain ⟨hplain, hrest⟩ := h
    have hnext : (if isCaseIgnorable c then uncasedBefore else !isCased c) = true →
        (if isCaseIgnorable c then casedBefore else isCased c) = false := by
      split
      · exact hbefore
      · exact fun hcased => by simpa using hcased
    obtain ⟨casedBefore', htail⟩ :=
      ih _ _ hnext (fun hmem => hdotted (List.mem_cons_of_mem _ hmem)) hrest
    -- A capital sigma is final only behind a cased character and not before one.
    have hnot : (c = capitalSigma && casedBefore && !casedAhead (cs ++ behind)) = false := by
      simp only [Bool.or_eq_true, bne_iff_ne] at hplain
      rcases hplain with (hne | huncased) | hahead
      · rw [decide_eq_false hne, Bool.false_and, Bool.false_and]
      · rw [hbefore huncased, Bool.and_false, Bool.false_and]
      · rw [casedAhead_append behind hahead, Bool.not_true, Bool.and_false]
    refine ⟨casedBefore', ?_⟩
    rw [List.cons_append, lowerFrom, hnot, htail, if_neg Bool.false_ne_true,
      lowerForm_eq_kept hc, List.map_cons, List.singleton_append, List.cons_append]

section PlainSigmas

variable {word : Text} (hdotted : dottedI ∉ word) (hplain : plainSigmas word = true)

include hdotted hplain

theorem lower_of_plainSigmas : lower word = word.map lowerKept := by
  obtain ⟨_, halone⟩ := lowerFrom_of_plainSigmas false false nofun hdotted hplain []
  rwa [List.append_nil, lowerFrom, List.append_nil] at halone

/-- The copy of the word in the lowercase copy of a text, whichever way that was made. -/
theorem lowerAligned_of_plainSigmas (before behind : Text) :
    ∃ front back : Text,
      lowerAligned (before ++ (word ++ behind)) = front ++ (word.map lowerKept ++ back) ∧
        front.length = before.length := by
  unfold lowerAligned
  split
  · rename_i hsame
    obtain ⟨front, casedBefore, hfront⟩ := lowerFrom_append false before (word ++ behind)
    obtain ⟨casedBefore', hback⟩ :=
      lowerFrom_of_plainSigmas false casedBefore nofun hdotted hplain behind
    have hbehind : dottedI ∉ behind := fun hmem =>
      length_lower_eq_iff.mp hsame (List.mem_append_right _ (List.mem_append_right _ hmem))
    rw [lower, hfront, hback] at hsame ⊢
    simp only [List.length_append, List.length_map, length_lowerFrom,
      List.count_eq_zero.mpr hbehind] at hsame
    exact ⟨front, _, rfl, by omega⟩
  · exact ⟨before.map lowerKept, behind.map lowerKept, by rw [List.map_append, List.map_append],
      List.length_map _⟩

/-- A word whose sigmas are plain is read alike wherever it stands. -/
theorem readAlike_of_plainSigmas {t : Text} (h : word <:+: t) : ReadAlike word t := by
  obtain ⟨before, behind, rfl⟩ := h
  refine ⟨before, behind, rfl, fun i hi => ?_⟩
  obtain ⟨front, back, hcopy, hlength⟩ := lowerAligned_of_plainSigmas hdotted hplain before behind
  have hlt : i < (word.map lowerKept).length := by
    rw [List.length_map]; exact (List.getElem?_eq_some_iff.mp hi).1
  rw [List.append_assoc, hcopy, lower_of_plainSigmas hdotted hplain, ← hlength,
    List.getElem?_append_right (Nat.le_add_right _ _), Nat.add_sub_cancel_left,
    List.getElem?_append_left hlt]

end PlainSigmas

end Passcode.Text
