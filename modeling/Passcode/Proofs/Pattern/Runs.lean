import Passcode.Proofs.Pattern.Scan

/-!
# Runs — the two patterns that find runs

* Digits with no digit on either side (`digitPattern`) are found where a run of digits has the right
  length (`findClear_digitPattern`).
* Plain letters and digits from border to border (`tokenPattern`) are found where a run of word
  characters is made of them and has the right length (`findAll_tokenPattern`).

Either pattern has one repetition, and what follows it cannot stand between two of its characters.
So the repetition takes its whole stretch or leads nowhere (`flatMap_again_one`), and what may not
stand before it keeps a match from starting within a stretch.
-/

namespace Passcode

open Text Pattern

/-- Three to ten digits. -/
def digitPattern : Pattern := .repeated 3 10 (.one isAsciiDigit)

/-- Four to ten plain letters and digits, from border to border. -/
def tokenPattern : Pattern := .seq .border (.seq (.repeated 4 10 (.one isAsciiAlnum)) .border)

namespace Pattern

variable {p : Char → Bool} {t : Text} {r : Run} {i : Nat}

/-! ### What stands beside a run -/

theorem not_has_iff : has p t i = false ↔ ∀ c ∈ t[i]?, p c = false := by
  rw [has]
  cases t[i]? <;> simp

theorem has_stop_eq_any (h : r ∈ runs p t) (q : Char → Bool) : has q t r.stop = r.after.any q := by
  rw [Run.after_of_mem h]
  rfl

theorem not_hasBefore_of_mem (h : r ∈ runs p t) : hasBefore p t r.start = false := by
  cases hstart : r.start with
  | zero => rfl
  | succ j => exact not_has_iff.mpr (Run.not_before_of_mem h hstart.symm)

theorem not_has_stop_of_mem (h : r ∈ runs p t) : has p t r.stop = false :=
  not_has_iff.mpr (Run.not_after_of_mem h)

/-- A stretch that no such character stands before is a run. -/
theorem exists_run_of_clear (hi : has p t i = true) (hclear : hasBefore p t i = false) :
    ∃ r ∈ runs p t, r.start = i ∧ r.stop = i + stretch p t i := by
  obtain ⟨r, hr, hstart, hlength⟩ := exists_run hi fun j hj => by rw [← hj] at hclear; exact hclear
  exact ⟨r, hr, hstart, by rw [Run.stop, hstart, hlength]⟩

/-! ### Digits that stand clear -/

/-- A repetition that stands clear of its own kind takes a whole run. -/
theorem clearEnds_repeated {low high : Nat} (hlow : low ≠ 0) :
    clearEnds p t (.repeated low high (.one p)) i =
      if hasBefore p t i = false ∧ low ≤ stretch p t i ∧ stretch p t i ≤ high
      then [i + stretch p t i] else [] := by
  rw [clearEnds]
  cases hclear : hasBefore p t i with
  | true => simp
  | false =>
    have hwhole : (again ((one p).ends t) low high i).filter (fun stop => !has p t stop) =
        if low ≤ stretch p t i ∧ stretch p t i ≤ high
        then [i + stretch p t i].filter (fun stop => !has p t stop) else [] := by
      rw [← List.flatMap_singleton' (again _ low high i), List.filter_flatMap]
      exact flatMap_again_one (fun j _ hj => by simp [hj]) low high fun hzero => absurd hzero hlow
    have hend : 0 < stretch p t i → has p t (i + stretch p t i) = false := by
      intro hpos
      obtain ⟨r, hr, -, hstop⟩ := exists_run_of_clear (has_of_stretch_pos hpos) hclear
      rw [← hstop]
      exact not_has_stop_of_mem hr
    rw [Pattern.ends, hwhole]
    by_cases hlength : low ≤ stretch p t i ∧ stretch p t i ≤ high
    · simp [hlength, hend (by omega)]
    · simp [hlength]

/-- **The digits that stand clear** are the runs of three to ten digits. -/
theorem findClear_digitPattern (t : Text) :
    findClear isAsciiDigit t digitPattern =
      ((runs isAsciiDigit t).filter
        (fun r => 3 ≤ r.body.length && r.body.length ≤ 10)).map (fun r => (r.start, r.stop)) := by
  refine scanFrom_of_runs (fun r hr hlength => ?_) (fun i hsome => ?_)
  · rw [Bool.and_eq_true, decide_eq_true_eq, decide_eq_true_eq] at hlength
    rw [digitPattern, clearEnds_repeated (by decide), stretch_of_mem hr,
      if_pos ⟨not_hasBefore_of_mem hr, hlength⟩, Run.stop]
  · rw [digitPattern, clearEnds_repeated (by decide)] at hsome
    split at hsome
    · rename_i hmatch
      obtain ⟨hclear, hlow, hhigh⟩ := hmatch
      obtain ⟨r, hr, hstart, hstop⟩ := exists_run_of_clear
        (has_of_stretch_pos (Nat.lt_of_lt_of_le (by decide) hlow)) hclear
      rw [Run.stop, hstart, Nat.add_left_cancel_iff] at hstop
      refine ⟨r, hr, ?_, hstart⟩
      rw [Bool.and_eq_true, decide_eq_true_eq, decide_eq_true_eq, hstop]
      exact ⟨hlow, hhigh⟩
    · exact absurd rfl hsome

/-! ### Tokens from border to border -/

theorem has_isWord_of_alnum (h : has isAsciiAlnum t i = true) : has isWord t i = true :=
  has_of_imp (fun _ => isWord_of_alnum) h

theorem not_hasBefore_alnum (h : hasBefore isWord t i = false) :
    hasBefore isAsciiAlnum t i = false := by
  cases i with
  | zero => rfl
  | succ j =>
    exact Bool.eq_false_iff.mpr fun hj => Bool.eq_false_iff.mp h (has_isWord_of_alnum hj)

/-- From a border the pattern of tokens takes a whole stretch of plain letters and digits, if there
is a border behind it. -/
theorem tokenPattern_ends : tokenPattern.ends t i =
    if isBorder t i = true ∧ (4 ≤ stretch isAsciiAlnum t i ∧ stretch isAsciiAlnum t i ≤ 10) ∧
      isBorder t (i + stretch isAsciiAlnum t i) = true
    then [i + stretch isAsciiAlnum t i] else [] := by
  -- Between two letters or digits there is no border.
  have hstuck : ∀ j, has isAsciiAlnum t j = true → has isAsciiAlnum t (j + 1) = true →
      Pattern.border.ends t (j + 1) = [] := by
    intro j hj hnext
    refine if_neg ?_
    rw [isBorder, has_isWord_of_alnum hj, has_isWord_of_alnum hnext]
    decide
  have hwhole := flatMap_again_one hstuck 4 10 (i := i) fun hzero => absurd hzero (by decide)
  simp only [tokenPattern, Pattern.ends] at hwhole ⊢
  by_cases hborder : isBorder t i = true
  · rw [if_pos hborder, List.flatMap_singleton, hwhole]
    simp only [hborder, true_and]
    split
    · rename_i hlength
      simp only [hlength, true_and, and_self]
    · rename_i hlength
      rw [if_neg fun h => hlength h.1]
  · rw [if_neg hborder, if_neg fun h => hborder h.1]
    rfl

/-- **The tokens** are the runs of word characters that are four to ten plain letters and digits. -/
theorem findAll_tokenPattern (t : Text) :
    findAll t tokenPattern =
      ((runs isWord t).filter (fun r => r.body.all isAsciiAlnum && 4 ≤ r.body.length &&
        r.body.length ≤ 10)).map (fun r => (r.start, r.stop)) := by
  rw [findAll_eq_scanFrom]
  refine scanFrom_of_runs (fun r hr hchosen => ?_) (fun i hsome => ?_)
  · simp only [Bool.and_eq_true, decide_eq_true_eq, List.all_eq_true] at hchosen
    obtain ⟨⟨hplain, hlow⟩, hhigh⟩ := hchosen
    have hrun : r ∈ runs isAsciiAlnum t :=
      mem_runs_iff.mpr ((mem_runs_iff.mp hr).narrow (fun _ => isWord_of_alnum) hplain)
    have hborder : isBorder t r.start = true := by
      rw [isBorder_of_word (has_start_of_mem hr), not_hasBefore_of_mem hr]; rfl
    have hborder' : isBorder t r.stop = true := by
      rw [isBorder_stop_of_mem (fun _ h => h) hr, not_has_stop_of_mem hr]; rfl
    rw [tokenPattern_ends, stretch_of_mem hrun, ← Run.stop,
      if_pos ⟨hborder, ⟨hlow, hhigh⟩, hborder'⟩]
  · rw [tokenPattern_ends] at hsome
    split at hsome
    · rename_i hmatch
      obtain ⟨hborder, ⟨hlow, hhigh⟩, hborder'⟩ := hmatch
      have hi := has_of_stretch_pos (Nat.lt_of_lt_of_le (by decide) hlow)
      rw [isBorder_of_word (has_isWord_of_alnum hi), Bool.not_eq_true'] at hborder
      obtain ⟨r, hr, hstart, hstop⟩ := exists_run_of_clear hi (not_hasBefore_alnum hborder)
      rw [← hstart, hasBefore_eq_any hr] at hborder
      rw [← hstop, isBorder_stop_of_mem (fun _ => isWord_of_alnum) hr, Bool.not_eq_true',
        has_stop_eq_any hr] at hborder'
      rw [Run.stop, hstart, Nat.add_left_cancel_iff] at hstop
      refine ⟨r, mem_runs_iff.mpr ((mem_runs_iff.mp hr).widen (fun _ => isWord_of_alnum)
        (fun c hc => ?_) (fun c hc => ?_)), ?_, hstart⟩
      · rw [hc] at hborder; exact hborder
      · rw [hc] at hborder'; exact hborder'
      · simp only [Bool.and_eq_true, decide_eq_true_eq, List.all_eq_true, hstop]
        exact ⟨⟨Run.forall_of_mem hr, hlow⟩, hhigh⟩
    · exact absurd rfl hsome

end Pattern

end Passcode
