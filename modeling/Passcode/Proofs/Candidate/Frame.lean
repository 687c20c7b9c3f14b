import Passcode.Proofs.Candidate.Laminar
import Passcode.Proofs.Noise.Quiet
import Passcode.Proofs.Pattern.Chains
import Passcode.Proofs.Text.Cut

/-!
# Frames — a code and nothing else

Two texts are a frame if neither of them makes noise or has a candidate, and a run of digits between
them is joined to nothing (`IsFrame`).  A code of three to ten digits between them is then the only
candidate (`candidatesOf_frame`), whatever its digits:

* The first run of digits is the code, and those behind it are too short (`runs_frame`).
* No two runs of digits are linked, so no chain has a second chunk (`not_linked_frame`).
* A run of word characters that has a character of the code is the code itself, or it has a
  character that is no plain letter or digit (`not_isToken_of_mem_front`).
-/

namespace Passcode

open Text Pattern

/-! ### Frames -/

/-- A run of digits between the two texts is the only candidate. -/
structure IsFrame (before after : Text) : Prop where
  quietBefore : IsQuiet before
  quietAfter : IsQuiet after
  /-- No digit comes before the code. -/
  digitFree : DigitFree before
  /-- No plain letter stands right before the code. -/
  left : ∀ c ∈ before.getLast?, isAsciiAlnum c = false
  /-- No word character stands right behind the code. -/
  right : ∀ c ∈ after.head?, isWord c = false
  /-- The runs of digits behind the code are too short. -/
  short : ∀ r ∈ runs isAsciiDigit after, r.body.length < 3
  /-- No token stands behind the code. -/
  tokenFree : ∀ r ∈ runs isWord after, isToken r.body = false
  /-- No separator stands between two digits, the last one of the code among them. -/
  unlinked : ∀ i < after.length, has isAsciiDigit ('0' :: after) i = true →
    has isSeparator after i = true → has isAsciiDigit after (i + 1) = false

instance (before after : Text) : Decidable (IsFrame before after) :=
  decidable_of_iff
    (IsQuiet before ∧ IsQuiet after ∧ DigitFree before ∧
      (∀ c ∈ before.getLast?, isAsciiAlnum c = false) ∧ (∀ c ∈ after.head?, isWord c = false) ∧
      (∀ r ∈ runs isAsciiDigit after, r.body.length < 3) ∧
      (∀ r ∈ runs isWord after, isToken r.body = false) ∧
      ∀ i < after.length, has isAsciiDigit ('0' :: after) i = true →
        has isSeparator after i = true → has isAsciiDigit after (i + 1) = false)
    ⟨fun ⟨h₁, h₂, h₃, h₄, h₅, h₆, h₇, h₈⟩ => ⟨h₁, h₂, h₃, h₄, h₅, h₆, h₇, h₈⟩,
      fun ⟨h₁, h₂, h₃, h₄, h₅, h₆, h₇, h₈⟩ => ⟨h₁, h₂, h₃, h₄, h₅, h₆, h₇, h₈⟩⟩

/-! ### The runs of a framed code -/

section Frame

variable {before code after : Text}

/-- The run of digits that a code between two texts is. -/
def framedRun (before code after : Text) : Run :=
  ⟨before.getLast?, before.length, code, after.head?⟩

/-- The same run where nothing stands behind the code. -/
def frontRun (before code : Text) : Run := framedRun before code []

theorem closeAt_frontRun :
    Run.closeAt (before.length + code.length) after.head? (frontRun before code) =
      framedRun before code after := Run.closeAt_of_eq rfl

theorem not_digit_of_not_isWord {c : Char} (h : isWord c = false) : isAsciiDigit c = false :=
  Bool.eq_false_iff.mpr fun hc => by rw [isWord_of_digit hc] at h; cases h

section Code

variable (h : IsFrame before after) (hne : code ≠ []) (hcode : ∀ c ∈ code, isAsciiDigit c = true)

include h hne hcode

theorem runs_front : runs isAsciiDigit (before ++ code) = [frontRun before code] := by
  rw [runs, runsFrom_append_of_not h.digitFree, runsFrom_of_all hne hcode, Option.or_none,
    Nat.zero_add]
  rfl

/-- The runs of digits are the code and those behind it. -/
theorem runs_frame :
    runs isAsciiDigit (before ++ code ++ after) = framedRun before code after ::
      runsFrom isAsciiDigit ((before ++ code).getLast?.or none) (before.length + code.length)
        after := by
  have happend := runsFrom_append (p := isAsciiDigit)
    (fun c hc => not_digit_of_not_isWord (h.right c hc)) (before ++ code) none 0
  rw [← runs, ← runs, runs_front h hne hcode, Nat.zero_add, List.length_append,
    List.map_singleton, closeAt_frontRun] at happend
  exact happend

theorem stop_framedRun_le {r : Run} (hr : r ∈ runs isAsciiDigit (before ++ code ++ after)) :
    before.length + code.length ≤ r.stop := by
  rw [runs_frame h hne hcode] at hr
  rcases List.mem_cons.mp hr with rfl | hr
  · exact Nat.le_refl _
  · have := (runsFrom_order _ _ _).1 r hr
    omega

/-! ### The three passes -/

theorem numericPass_frame (hlow : 3 ≤ code.length) (hhigh : code.length ≤ 10) :
    numericPass (before ++ code ++ after) =
      [.ofRun .numeric true (framedRun before code after)] := by
  have hrest : (runsFrom isAsciiDigit ((before ++ code).getLast?.or none)
      (before.length + code.length) after).filter
        (fun r => 3 ≤ r.body.length && r.body.length ≤ 10) = [] := by
    refine List.filter_eq_nil_iff.mpr fun r hr hlong => ?_
    obtain ⟨s, hs, hbody, -⟩ := exists_mem_runs_of_mem_runsFrom hr
    have hshort := h.short s hs
    rw [hbody] at hshort
    exact absurd (of_decide_eq_true (Bool.and_eq_true_iff.mp hlong).1) (Nat.not_le.mpr hshort)
  rw [numericPass, runs_frame h hne hcode, List.filter_cons, hrest, framedRun,
    decide_eq_true hlow, decide_eq_true hhigh]
  rfl

/-- No two runs of digits are linked. -/
theorem not_linked_frame {r s : Run} (hr : r ∈ runs isAsciiDigit (before ++ code ++ after))
    (hs : s ∈ runs isAsciiDigit (before ++ code ++ after)) : r.linkedTo s = false := by
  refine Bool.eq_false_iff.mpr fun hlink => ?_
  have hget : ∀ {p : Char → Bool} (j : Nat),
      has p (before ++ code ++ after) (before.length + code.length + j) = has p after j := by
    intro p j
    rw [has, has, ← List.length_append, List.getElem?_append_right (Nat.le_add_right _ _),
      Nat.add_sub_cancel_left]
  obtain ⟨i, hi⟩ := Nat.exists_eq_add_of_le (stop_framedRun_le h hne hcode hr)
  have hsep := has_separator_of_linked hr hlink
  rw [hi, hget] at hsep
  -- The digits on both sides of the separator are the last of `r` and the first of `s`.
  have hnext := has_start_of_mem hs
  rw [(Run.linkedTo_iff.mp hlink).2, hi, Nat.add_assoc, hget] at hnext
  have hlast : has isAsciiDigit ('0' :: after) i = true := by
    cases i with
    | zero => rfl
    | succ j =>
      have hspan := Run.start_lt_stop_of_mem hr
      obtain ⟨c, hc, hdigit⟩ := Run.exists_of_mem hr (Nat.le_sub_one_of_lt hspan) (by omega)
      have hj := hget (p := isAsciiDigit) j
      rw [has, has, show before.length + code.length + j = r.stop - 1 by omega, hc] at hj
      rw [has, List.getElem?_cons_succ, ← hj]
      exact hdigit
  obtain ⟨c, hc, -⟩ := exists_of_has hsep
  rw [h.unlinked i (List.getElem?_eq_some_iff.mp hc).1 hlast hsep] at hnext
  cases hnext

theorem groupedPass_frame (seen : List Text) : groupedPass seen (before ++ code ++ after) = [] := by
  have hnone : (chains (chunks (before ++ code ++ after))).filter
      (fun chain => 2 ≤ chain.length) = [] := by
    refine List.filter_eq_nil_iff.mpr fun chain hchain hmany => ?_
    cases linked_of_mem_chains (fun _ hr => hr) hchain with
    | single => exact absurd (of_decide_eq_true hmany) (Nat.lt_irrefl 1)
    | cons hr hlink hrest =>
      have hs := hrest.mem_chunks _ List.mem_cons_self
      rw [not_linked_frame h hne hcode (mem_runs_of_mem_chunks hr).1
        (mem_runs_of_mem_chunks hs).1] at hlink
      cases hlink
  rw [groupedPass, hnone]
  rfl

/-- No run of word characters that ends with the code or before it is a token. -/
theorem not_isToken_of_mem_front {r : Run} (hr : r ∈ runs isWord (before ++ code)) :
    isToken r.body = false := by
  refine Bool.eq_false_iff.mpr fun htoken => ?_
  have hq : frontRun before code ∈ runs isAsciiDigit (before ++ code) := by
    rw [runs_front h hne hcode]
    exact List.mem_singleton_self _
  have hfirst : (frontRun before code).start = before.length := rfl
  have hlast : (frontRun before code).stop = before.length + code.length := rfl
  have hspan := Run.start_lt_stop_of_mem hr
  have hstop := Run.stop_le_length_of_mem hr
  rw [List.length_append] at hstop
  have hkind := htoken
  simp only [isToken, Bool.and_eq_true, decide_eq_true_eq, List.all_eq_true] at hkind
  rcases Run.apart_or_within (fun _ => isWord_of_digit) hq hr with hlt | hlt | ⟨hstart, hend⟩
  · omega
  · -- Before the code there are no digits.
    have hnone : r.body.countP isAsciiDigit = 0 := by
      refine List.countP_eq_zero.mpr fun c hc hdigit => ?_
      obtain ⟨i, -, hi, hget⟩ := (Run.mem_body_iff hr).mp hc
      rw [List.getElem?_append_left (Nat.lt_trans hi hlt)] at hget
      rw [h.digitFree c (List.mem_of_getElem? hget)] at hdigit
      cases hdigit
    omega
  · rcases Nat.eq_or_lt_of_le hstart with heq | hlt
    · have hsame : r.stop = (frontRun before code).stop := by omega
      have hbody : r.body = (frontRun before code).body := by
        rw [← Run.slice_of_mem hr, ← Run.slice_of_mem hq, heq, hsame]
      exact not_digits_of_isToken htoken (hbody ▸ hcode)
    · -- The run reaches over what stands right before the code.
      have hindex : before.length - 1 < before.length := by omega
      have hget : (before ++ code)[before.length - 1]? = some before[before.length - 1] := by
        rw [List.getElem?_append_left hindex, List.getElem?_eq_getElem hindex]
      have hmem := (Run.mem_body_iff hr).mpr ⟨_, by omega, by omega, hget⟩
      have hleft :=
        h.left _ (by rw [List.getLast?_eq_getElem?, List.getElem?_eq_getElem hindex]; rfl)
      rw [hkind.1.1.1.1 _ hmem] at hleft
      cases hleft

theorem alnumPass_frame : alnumPass (before ++ code ++ after) = [] := by
  have hnone : (runs isWord (before ++ code ++ after)).filter (fun r => isToken r.body) = [] := by
    refine List.filter_eq_nil_iff.mpr fun r hr htoken => ?_
    rw [runs, runsFrom_append h.right] at hr
    rcases List.mem_append.mp hr with hr | hr
    · obtain ⟨s, hs, rfl⟩ := List.mem_map.mp hr
      rw [Run.closeAt_body, not_isToken_of_mem_front h hne hcode hs] at htoken
      cases htoken
    · obtain ⟨s, hs, hbody, -⟩ := exists_mem_runs_of_mem_runsFrom hr
      rw [← hbody, h.tokenFree s hs] at htoken
      cases htoken
  rw [alnumPass, hnone]
  rfl

/-- **A framed code is the only candidate.** -/
theorem candidatesOf_frame (hlow : 3 ≤ code.length) (hhigh : code.length ≤ 10) :
    candidatesOf (before ++ code ++ after) =
      [.ofRun .numeric true (framedRun before code after)] := by
  rw [candidatesOf, maskNoise_of_quiet (h.quietBefore.around h.quietAfter hcode hne)]
  rw [numericPass_frame h hne hcode hlow hhigh, groupedPass_frame h hne hcode,
    alnumPass_frame h hne hcode]
  rfl

end Code

end Frame

end Passcode
