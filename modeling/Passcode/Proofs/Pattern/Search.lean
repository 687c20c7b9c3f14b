import Passcode.Proofs.Text.Maximal

/-!
# Patterns — search by backtracking

A pattern is matched from an index on.  It can end at several indices, and `Pattern.ends` lists
them in the order in which a search by backtracking tries them: a repetition goes on for as long as
it can and gives its pieces back one by one.  The first of these indices is where the match ends.
`Pattern.findAll` goes through a text from left to right and continues behind each match.

A repetition of one kind of character, followed by what cannot start within such characters, matches
the whole stretch of them or nothing (`flatMap_again_one`).
-/

namespace Passcode

/-- A pattern of characters. -/
inductive Pattern where
  /-- One character with the property. -/
  | one (p : Char → Bool)
  /-- The place between a word character and anything else. -/
  | border
  | seq (a b : Pattern)
  /-- At least `low` and at most `high` times the pattern, as many times as possible. -/
  | repeated (low high : Nat) (a : Pattern)

namespace Pattern

/-- A character with the property stands at index `i`. -/
def has (p : Char → Bool) (t : Text) (i : Nat) : Bool := t[i]?.any p

/-- A character with the property stands right before index `i`. -/
def hasBefore (p : Char → Bool) (t : Text) : Nat → Bool
  | 0 => false
  | i + 1 => has p t i

/-- On exactly one side of index `i` stands a word character. -/
def isBorder (t : Text) : Nat → Bool
  | 0 => has Text.isWord t 0
  | i + 1 => has Text.isWord t i != has Text.isWord t (i + 1)

/-- The ends of `low` to `high` steps, those of more steps first. -/
def again (step : Nat → List Nat) : Nat → Nat → Nat → List Nat
  | 0, 0, i => [i]
  | 0, high + 1, i => (step i).flatMap (again step 0 high) ++ [i]
  | _ + 1, 0, _ => []
  | low + 1, high + 1, i => (step i).flatMap (again step low high)

/-- Where the pattern can end if it starts at an index, in the order of preference. -/
def ends (t : Text) : Pattern → Nat → List Nat
  | one p, i => if has p t i then [i + 1] else []
  | border, i => if isBorder t i then [i] else []
  | seq a b, i => (a.ends t i).flatMap (b.ends t)
  | repeated low high a, i => again (a.ends t) low high i

/-- The matches that start at one of `left` indices from `pos` on, the first `skip` being passed
over. -/
def findFrom (t : Text) (a : Pattern) : Nat → Nat → Nat → List (Nat × Nat)
  | 0, _, _ => []
  | left + 1, skip + 1, pos => findFrom t a left skip (pos + 1)
  | left + 1, 0, pos =>
    match (a.ends t pos).head? with
    | some stop => (pos, stop) :: findFrom t a left (stop - pos - 1) (pos + 1)
    | none => findFrom t a left 0 (pos + 1)

/-- The matches of a pattern in a text, each with its start and the index behind it. -/
def findAll (t : Text) (a : Pattern) : List (Nat × Nat) := findFrom t a (t.length + 1) 0 0

/-! ### Stretches of one kind -/

/-- The number of characters with the property from index `i` on. -/
def stretch (p : Char → Bool) (t : Text) (i : Nat) : Nat := ((t.drop i).takeWhile p).length

variable {p : Char → Bool} {t : Text} {i : Nat}

theorem stretch_of_not (h : has p t i = false) : stretch p t i = 0 := by
  rw [stretch]
  cases hdrop : t.drop i with
  | nil => rfl
  | cons c cs =>
    have hget : t[i]? = some c := by rw [← List.head?_drop, hdrop]; rfl
    rw [has, hget, Option.any_some] at h
    rw [List.takeWhile_cons_of_neg (Bool.not_eq_true _ ▸ h)]
    rfl

theorem exists_of_has (h : has p t i = true) : ∃ c, t[i]? = some c ∧ p c = true := by
  cases hget : t[i]? with
  | none => rw [has, hget] at h; cases h
  | some c => rw [has, hget] at h; exact ⟨c, rfl, h⟩

/-- A stretch that is not empty is one character and the stretch behind it. -/
theorem stretch_of (h : has p t i = true) : stretch p t i = stretch p t (i + 1) + 1 := by
  obtain ⟨c, hget, hc⟩ := exists_of_has h
  rw [stretch, stretch, List.drop_eq_getElem?_toList_append, hget]
  exact congrArg List.length (List.takeWhile_cons_of_pos hc)

theorem has_of_stretch_pos (h : 0 < stretch p t i) : has p t i = true := by
  cases hi : has p t i with
  | true => rfl
  | false => rw [stretch_of_not hi] at h; exact absurd h (Nat.lt_irrefl _)

theorem ends_one_of (h : has p t i = true) : (one p).ends t i = [i + 1] := if_pos h

theorem ends_one_of_not (h : has p t i = false) : (one p).ends t i = [] :=
  if_neg (Bool.eq_false_iff.mp h)

/-- What follows a repetition of one kind of character, and cannot start between two of them, is
tried at the end of the whole stretch and nowhere else. -/
theorem flatMap_again_one {next : Nat → List Nat}
    (hnext : ∀ j, has p t j = true → has p t (j + 1) = true → next (j + 1) = [])
    (low high : Nat) (hlow : low = 0 → ∃ j, i = j + 1 ∧ has p t j = true) :
    (again ((one p).ends t) low high i).flatMap next =
      if low ≤ stretch p t i ∧ stretch p t i ≤ high then next (i + stretch p t i) else [] := by
  have stuck : low = 0 → has p t i = true → next i = [] := by
    intro hzero hi
    obtain ⟨j, rfl, hj⟩ := hlow hzero
    exact hnext j hj hi
  induction high generalizing low i with
  | zero =>
    cases hi : has p t i with
    | false =>
      rw [stretch_of_not hi]
      cases low with
      | zero => simp [again]
      | succ low => simp [again]
    | true =>
      rw [stretch_of hi, if_neg (by omega)]
      cases low with
      | zero => simpa [again] using stuck rfl hi
      | succ low => rfl
  | succ high ih =>
    cases hi : has p t i with
    | false =>
      rw [stretch_of_not hi]
      cases low with
      | zero => simp [again, ends_one_of_not hi]
      | succ low => simp [again, ends_one_of_not hi]
    | true =>
      -- Behind this character the rest of the repetition ends where the stretch does.
      have hrest : ∀ low, (again ((one p).ends t) low high (i + 1)).flatMap next =
          if low ≤ stretch p t (i + 1) ∧ stretch p t (i + 1) ≤ high
          then next (i + 1 + stretch p t (i + 1)) else [] :=
        fun low => ih low (fun _ => ⟨i, rfl, hi⟩) (fun _ hi' => hnext i hi hi')
      rw [stretch_of hi, ← Nat.add_assoc, Nat.add_right_comm]
      cases low with
      | zero => simp [again, ends_one_of hi, hrest, stuck rfl hi]
      | succ low => simp [again, ends_one_of hi, hrest]

/-! ### Stretches and runs -/

/-- A stretch behind a character without the property is a run. -/
theorem exists_run (hi : has p t i = true) (hprev : ∀ j, j + 1 = i → has p t j = false) :
    ∃ r ∈ Text.runs p t, r.start = i ∧ r.body.length = stretch p t i := by
  have hle : i ≤ t.length := by
    obtain ⟨c, hget, -⟩ := exists_of_has hi
    exact Nat.le_of_lt (List.getElem?_eq_some_iff.mp hget).1
  have hlength : (t.take i).length = i := by rw [List.length_take, Nat.min_eq_left hle]
  refine ⟨⟨(t.take i).getLast?, i, (t.drop i).takeWhile p, ((t.drop i).dropWhile p).head?⟩,
    Text.mem_runs_iff.mpr ⟨t.take i, (t.drop i).dropWhile p, {
      text_eq := ?_
      start_eq := by rw [hlength, Nat.zero_add]
      before_eq := by rw [Option.or_none]
      after_eq := rfl
      body_ne_nil := ?_
      body_all := List.all_eq_true.mp List.all_takeWhile
      left := ?_
      right := ?_ }⟩, rfl, rfl⟩
  · rw [List.append_assoc, List.takeWhile_append_dropWhile, List.take_append_drop]
  · have hpos : 0 < ((t.drop i).takeWhile p).length := by
      rw [← stretch, stretch_of hi]
      exact Nat.succ_pos _
    exact List.ne_nil_of_length_pos hpos
  · intro c hc
    rw [List.getLast?_eq_getElem?, hlength] at hc
    cases i with
    | zero => rw [List.take_zero] at hc; cases hc
    | succ j =>
      rw [Nat.add_sub_cancel, List.getElem?_take_of_lt (Nat.lt_succ_self j)] at hc
      have hj := hprev j rfl
      rw [has, hc, Option.any_some] at hj
      exact hj
  · intro c hc
    have := List.head?_dropWhile_not p (t.drop i)
    rw [hc] at this
    exact this

/-- A run starts with a character of its kind. -/
theorem has_start_of_mem {r : Run} (h : r ∈ Text.runs p t) : has p t r.start = true := by
  obtain ⟨c, hget, hc⟩ := Run.exists_of_mem h (Nat.le_refl _) (Run.start_lt_stop_of_mem h)
  rw [has, hget]
  exact hc

/-- A run is the stretch from its start on. -/
theorem stretch_of_mem {r : Run} (h : r ∈ Text.runs p t) :
    stretch p t r.start = r.body.length := by
  obtain ⟨s, hs, hstart, hlength⟩ := exists_run (has_start_of_mem h) fun j hj => by
    have hbefore := Run.not_before_of_mem h hj
    rw [has]
    cases hget : t[j]? with
    | none => rfl
    | some c => exact hbefore c hget
  have hspan := Run.start_lt_stop_of_mem h
  have hspan' := Run.start_lt_stop_of_mem hs
  rcases Text.runs_apart h hs with rfl | hlt | hlt
  · exact hlength.symm
  · omega
  · omega

/-- The character before a run is the one it knows of. -/
theorem hasBefore_eq_any {r : Run} (h : r ∈ Text.runs p t) (q : Char → Bool) :
    hasBefore q t r.start = r.before.any q := by
  cases hstart : r.start with
  | zero => rw [Run.before_of_start_zero h hstart]; rfl
  | succ j => rw [Run.before_of_mem h hstart.symm]; rfl

/-! ### Runs of word characters -/

theorem has_of_imp {q : Char → Bool} (hpq : ∀ c, p c = true → q c = true) (h : has p t i = true) :
    has q t i = true := by
  obtain ⟨c, hget, hc⟩ := exists_of_has h
  rw [has, hget]
  exact hpq c hc

/-- At a word character there is a border if none stands before it. -/
theorem isBorder_of_word (h : has Text.isWord t i = true) :
    isBorder t i = !hasBefore Text.isWord t i := by
  cases i with
  | zero => exact h
  | succ j => rw [isBorder, h, Bool.bne_true]; rfl

/-- Behind a run of word characters there is a border if no word character follows it. -/
theorem isBorder_stop_of_mem (hp : ∀ c, p c = true → Text.isWord c = true) {r : Run}
    (h : r ∈ Text.runs p t) : isBorder t r.stop = !has Text.isWord t r.stop := by
  have hspan := Run.start_lt_stop_of_mem h
  obtain ⟨j, hj⟩ : ∃ j, r.stop = j + 1 := ⟨r.stop - 1, by omega⟩
  obtain ⟨c, hget, hc⟩ := Run.exists_of_mem h (i := j) (by omega) (by omega)
  have hword : has Text.isWord t j = true := has_of_imp hp (by rw [has, hget]; exact hc)
  rw [hj, isBorder, hword, Bool.true_bne]

end Pattern

end Passcode
