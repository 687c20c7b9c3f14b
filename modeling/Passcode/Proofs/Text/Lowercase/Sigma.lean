import Passcode.Proofs.Text.Lowercase.Aligned

/-!
# Sigma — where the lowercase copy is not made character by character

A capital sigma ends a word if a cased character stands before it and none behind it, the characters
that case ignores being passed over (`EndsWord`).  In a text without the dotted capital I it is then
written as the final sigma (`WrittenFinal`), and every other character of the copy depends on one
character of the text alone (`getElem?_lowerAligned`).

So the copy is made character by character exactly if no sigma of the text is written final; and the
copy of two texts, one behind the other, is made of their two copies exactly if each sigma is
written in the whole as it is in its part (`lowerAligned_append_iff`).
-/

namespace Passcode.Text

/-- A word ends at index `i` with a capital sigma: the next character before it that case does not
ignore is cased, and the next one behind it is not. -/
def EndsWord (t : Text) (i : Nat) : Prop :=
  t[i]? = some capitalSigma ∧ casedAhead (t.take i).reverse = true ∧
    casedAhead (t.drop (i + 1)) = false

instance (t : Text) (i : Nat) : Decidable (EndsWord t i) := inferInstanceAs (Decidable (_ ∧ _))

/-- The lowercase copy of the text has the final sigma at index `i`, for a capital one. -/
def WrittenFinal (t : Text) (i : Nat) : Prop := dottedI ∉ t ∧ EndsWord t i

instance (t : Text) (i : Nat) : Decidable (WrittenFinal t i) := inferInstanceAs (Decidable (_ ∧ _))

/-! ### The characters of the copy -/

theorem lowerKept_capitalSigma : lowerKept capitalSigma = smallSigma := by decide +kernel

/-- One character more is looked at first by a search to the left. -/
theorem casedAhead_reverse_concat (before : Text) (c : Char) :
    casedAhead (before ++ [c]).reverse =
      if isCaseIgnorable c then casedAhead before.reverse else isCased c := by
  rw [List.reverse_append, List.reverse_singleton, List.singleton_append, casedAhead]

/-- What lowercasing writes for a character, read off what stands before it and behind it. -/
theorem getElem?_lowerFrom {before t : Text} (h : dottedI ∉ t) {i : Nat} {c : Char}
    (hc : t[i]? = some c) :
    (lowerFrom (casedAhead before.reverse) t)[i]? =
      some (if EndsWord (before ++ t) (before.length + i) then finalSigma else lowerKept c) := by
  induction t generalizing before i with
  | nil => cases hc
  | cons d ds ih =>
    have hd : d ≠ dottedI := fun hd => h (hd ▸ List.mem_cons_self)
    have hone : lowerFrom (casedAhead before.reverse) (d :: ds) =
        (if EndsWord (before ++ d :: ds) before.length then finalSigma else lowerKept d) ::
          lowerFrom (casedAhead (before ++ [d]).reverse) ds := by
      have hends : EndsWord (before ++ d :: ds) before.length ↔
          d = capitalSigma ∧ casedAhead before.reverse = true ∧ casedAhead ds = false := by
        rw [EndsWord, List.getElem?_append_right (Nat.le_refl _), Nat.sub_self, List.take_left,
          List.drop_append, List.drop_eq_nil_of_le (Nat.le_succ _), Nat.add_sub_cancel_left]
        simp
      rw [lowerFrom, casedAhead_reverse_concat, lowerForm_eq_kept hd]
      simp only [hends, Bool.and_eq_true, decide_eq_true_eq, Bool.not_eq_true', and_assoc]
      split <;> rfl
    rw [hone]
    cases i with
    | zero =>
      cases hc
      rfl
    | succ i =>
      rw [List.getElem?_cons_succ, ih (fun hmem => h (List.mem_cons_of_mem _ hmem)) hc]
      simp only [List.append_assoc, List.singleton_append, List.length_append,
        List.length_singleton, Nat.add_assoc, Nat.add_comm 1]

/-- **The lowercase copy, character by character**: final sigmas apart, each is the lowercase form
of the one at its index. -/
theorem getElem?_lowerAligned {t : Text} {i : Nat} {c : Char} (hc : t[i]? = some c) :
    (lowerAligned t)[i]? = some (if WrittenFinal t i then finalSigma else lowerKept c) := by
  unfold lowerAligned WrittenFinal
  simp only [length_lower_eq_iff]
  by_cases hdotted : dottedI ∈ t
  · simp only [hdotted, not_true_eq_false, false_and, if_false, List.getElem?_map, hc,
      Option.map_some]
  · simp only [hdotted, not_false_eq_true, true_and, if_true]
    have hcopy := @getElem?_lowerFrom [] t hdotted i c hc
    rwa [List.nil_append, List.length_nil, Nat.zero_add] at hcopy

/-- Two copies of a character are the same if both are a final sigma or none is. -/
theorem getElem?_lowerAligned_eq_iff {s t : Text} {i j : Nat} {c : Char} (hs : s[i]? = some c)
    (ht : t[j]? = some c) :
    (lowerAligned s)[i]? = (lowerAligned t)[j]? ↔ (WrittenFinal s i ↔ WrittenFinal t j) := by
  -- A capital sigma that is not written final is written as the plain one.
  have hne : ∀ {u : Text} {k : Nat}, u[k]? = some c → WrittenFinal u k →
      lowerKept c ≠ finalSigma := by
    intro u k hu hfinal
    obtain rfl : c = capitalSigma := Option.some.inj (hu.symm.trans hfinal.2.1)
    rw [lowerKept_capitalSigma]
    decide
  rw [getElem?_lowerAligned hs, getElem?_lowerAligned ht, Option.some_inj]
  by_cases hs' : WrittenFinal s i
  · by_cases ht' : WrittenFinal t j
    · rw [if_pos hs', if_pos ht']
      exact iff_of_true rfl ⟨fun _ => ht', fun _ => hs'⟩
    · rw [if_pos hs', if_neg ht']
      exact iff_of_false (hne hs hs').symm fun h => ht' (h.mp hs')
  · by_cases ht' : WrittenFinal t j
    · rw [if_neg hs', if_pos ht']
      exact iff_of_false (hne ht ht') fun h => hs' (h.mpr ht')
    · rw [if_neg hs', if_neg ht']
      exact iff_of_true rfl ⟨fun h => absurd h hs', fun h => absurd h ht'⟩

/-! ### Copies of texts behind one another -/

theorem lowerAligned_eq_map_iff {t : Text} :
    lowerAligned t = t.map lowerKept ↔ ∀ i, ¬ WrittenFinal t i := by
  constructor
  · intro h i hfinal
    have hcopy := getElem?_lowerAligned hfinal.2.1
    rw [h, List.getElem?_map, hfinal.2.1, if_pos hfinal, Option.map_some,
      lowerKept_capitalSigma] at hcopy
    exact absurd hcopy (by decide)
  · intro h
    refine List.ext_getElem? fun i => ?_
    cases hc : t[i]? with
    | none =>
      rw [List.getElem?_map, hc, Option.map_none, List.getElem?_eq_none_iff, length_lowerAligned]
      exact List.getElem?_eq_none_iff.mp hc
    | some c => rw [getElem?_lowerAligned hc, if_neg (h i), List.getElem?_map, hc, Option.map_some]

theorem lowerAligned_append_iff {a b : Text} :
    lowerAligned (a ++ b) = lowerAligned a ++ lowerAligned b ↔
      (∀ i < a.length, (WrittenFinal (a ++ b) i ↔ WrittenFinal a i)) ∧
        ∀ i < b.length, (WrittenFinal (a ++ b) (a.length + i) ↔ WrittenFinal b i) := by
  -- At an index of the first text and at one of the second the two sides have one character each.
  have hfirst : ∀ i < a.length, ((lowerAligned (a ++ b))[i]? =
      (lowerAligned a ++ lowerAligned b)[i]? ↔ (WrittenFinal (a ++ b) i ↔ WrittenFinal a i)) := by
    intro i hi
    rw [List.getElem?_append_left (by rw [length_lowerAligned]; exact hi)]
    have hget := List.getElem?_eq_getElem hi
    exact getElem?_lowerAligned_eq_iff ((List.getElem?_append_left hi).trans hget) hget
  have hsecond : ∀ i < b.length, ((lowerAligned (a ++ b))[a.length + i]? =
      (lowerAligned a ++ lowerAligned b)[a.length + i]? ↔
        (WrittenFinal (a ++ b) (a.length + i) ↔ WrittenFinal b i)) := by
    intro i hi
    have hget := List.getElem?_eq_getElem hi
    have hbehind : ∀ s t : Text, s.length = a.length → (s ++ t)[a.length + i]? = t[i]? := by
      intro s t hs
      rw [← hs, List.getElem?_append_right (Nat.le_add_right _ _), Nat.add_sub_cancel_left]
    rw [hbehind _ _ (length_lowerAligned a)]
    exact getElem?_lowerAligned_eq_iff ((hbehind a b rfl).trans hget) hget
  constructor
  · intro h
    exact ⟨fun i hi => (hfirst i hi).mp (by rw [h]), fun i hi => (hsecond i hi).mp (by rw [h])⟩
  · rintro ⟨ha, hb⟩
    refine List.ext_getElem? fun i => ?_
    rcases Nat.lt_or_ge i a.length with hi | hi
    · exact (hfirst i hi).mpr (ha i hi)
    · obtain ⟨j, rfl⟩ := Nat.exists_eq_add_of_le hi
      rcases Nat.lt_or_ge j b.length with hj | hj
      · exact (hsecond j hj).mpr (hb j hj)
      · have hlength : (lowerAligned (a ++ b)).length = a.length + b.length := by
          rw [length_lowerAligned, List.length_append]
        have hlength' : (lowerAligned a ++ lowerAligned b).length = a.length + b.length := by
          rw [List.length_append, length_lowerAligned, length_lowerAligned]
        rw [List.getElem?_eq_none (by omega), List.getElem?_eq_none (by omega)]

/-- **Sigmas at the end of words are all that keeps the copy from being made character by
character**: the copy of a text is so made exactly if no sigma is written final in it, and the
copies of two texts make the copy of both exactly if each sigma is written final in the whole just
when it is in its part. -/
theorem lowerAligned_in_parts (a b : Text) :
    (lowerAligned a = a.map lowerKept ↔ ∀ i, ¬ WrittenFinal a i) ∧
      (lowerAligned (a ++ b) = lowerAligned a ++ lowerAligned b ↔
        (∀ i < a.length, (WrittenFinal (a ++ b) i ↔ WrittenFinal a i)) ∧
          ∀ i < b.length, (WrittenFinal (a ++ b) (a.length + i) ↔ WrittenFinal b i)) :=
  ⟨lowerAligned_eq_map_iff, lowerAligned_append_iff⟩

/-- A sigma behind a cased letter is final in the whole and not in its part; a dotted capital I
makes it plain in the whole. -/
example :
    lowerAligned "ΑΣ".toList = "ας".toList ∧
      lowerAligned "Α".toList ++ lowerAligned "Σ".toList = "ασ".toList ∧
        lowerAligned "ΑΣ İ".toList = "ασ İ".toList := by decide +kernel

end Passcode.Text
