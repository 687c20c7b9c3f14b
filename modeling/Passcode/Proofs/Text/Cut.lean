import Passcode.Proofs.Text.Runs

/-!
# Cuts — the runs on both sides of one

Where a text is cut before a character that is in no run, its runs are those of the first part and
those of the second (`runsFrom_append`).  The first part does not know what stands behind it, so a
run that ends with it has its right neighbour from the second part (`Run.closeAt`).

Two texts *agree up to* an index if they are the same before it and each has a space there or ends
there (`AgreeTo`).  Then the runs that end by that index are the same but for their right neighbours
(`AgreeTo.exists_run`).
-/

namespace Passcode

namespace Run

/-- The run with the right neighbour `c`, if it ends right before index `n`. -/
def closeAt (n : Nat) (c : Option Char) (r : Run) : Run :=
  if r.stop = n then { r with after := c } else r

/-- Where the run starts, and its body. -/
def place (r : Run) : Nat × Text := (r.start, r.body)

variable {n : Nat} {c : Option Char} {r : Run}

/-- A run that ends at the index gets the character behind it. -/
theorem closeAt_of_eq (h : r.stop = n) : r.closeAt n c = { r with after := c } := if_pos h

theorem closeAt_of_ne (h : r.stop ≠ n) : r.closeAt n c = r := if_neg h

@[simp] theorem closeAt_start : (r.closeAt n c).start = r.start := by
  unfold closeAt; split <;> rfl

@[simp] theorem closeAt_body : (r.closeAt n c).body = r.body := by
  unfold closeAt; split <;> rfl

@[simp] theorem closeAt_before : (r.closeAt n c).before = r.before := by
  unfold closeAt; split <;> rfl

@[simp] theorem closeAt_stop : (r.closeAt n c).stop = r.stop := by
  rw [stop, stop, closeAt_start, closeAt_body]

/-- A run that is lengthened to the left ends where it did. -/
theorem closeAt_lengthened {before : Option Char} {pos : Nat} {d : Char}
    (h : r.start = pos + 1) :
    closeAt n c { r with before := before, start := pos, body := d :: r.body } =
      { r.closeAt n c with before := before, start := pos, body := d :: (r.closeAt n c).body } := by
  have hstop : stop { r with before := before, start := pos, body := d :: r.body } = r.stop := by
    simp only [stop, List.length_cons, h]; omega
  by_cases hr : r.stop = n
  · rw [closeAt_of_eq (hstop.trans hr), closeAt_of_eq hr]
  · rw [closeAt_of_ne (hstop ▸ hr), closeAt_of_ne hr]

end Run

namespace Text

variable {p : Char → Bool}

/-- Runs start behind a first character that is in none. -/
theorem lt_start_of_mem {before : Option Char} {pos : Nat} {t : Text}
    (ht : ∀ c ∈ t.head?, p c = false) {r : Run} (hr : r ∈ runsFrom p before pos t) :
    pos < r.start := by
  cases t with
  | nil => cases hr
  | cons c cs =>
    rw [runsFrom_cons_of_not (ht c rfl)] at hr
    have hge := ((runsFrom_order (some c) (pos + 1) cs).1 r hr).1
    omega

/-- A character with the property lengthens a run that starts behind it. -/
theorem runsFrom_cons_of_joined {c : Char} (hc : p c = true) {before : Option Char} {pos : Nat}
    {cs : Text} {r : Run} {rs : List Run} (h : runsFrom p (some c) (pos + 1) cs = r :: rs)
    (hr : r.start = pos + 1) :
    runsFrom p before pos (c :: cs) =
      { r with before := before, start := pos, body := c :: r.body } :: rs := by
  simp only [runsFrom, hc, if_true, h, if_pos hr]

/-- A character with the property is a run of its own if none starts behind it. -/
theorem runsFrom_cons_of_apart {c : Char} (hc : p c = true) {before : Option Char} {pos : Nat}
    {cs : Text} (h : ∀ r ∈ (runsFrom p (some c) (pos + 1) cs).head?, r.start ≠ pos + 1) :
    runsFrom p before pos (c :: cs) =
      ⟨before, pos, [c], cs.head?⟩ :: runsFrom p (some c) (pos + 1) cs := by
  simp only [runsFrom, hc, if_true]
  cases hruns : runsFrom p (some c) (pos + 1) cs with
  | nil => rfl
  | cons r rs => exact if_neg (h r (by rw [hruns]; rfl))

/-- **The runs on both sides of a cut.** -/
theorem runsFrom_append {t : Text} (ht : ∀ c ∈ t.head?, p c = false) (s : Text)
    (before : Option Char) (pos : Nat) :
    runsFrom p before pos (s ++ t) =
      (runsFrom p before pos s).map (Run.closeAt (pos + s.length) t.head?) ++
        runsFrom p (s.getLast?.or before) (pos + s.length) t := by
  induction s generalizing before pos with
  | nil => rfl
  | cons c cs ih =>
    have hrest := ih (some c) (pos + 1)
    have hlast : (c :: cs).getLast?.or before = cs.getLast?.or (some c) := by
      rw [List.getLast?_cons]; cases cs.getLast? <;> rfl
    have hlength : pos + (c :: cs).length = pos + 1 + cs.length := by
      rw [List.length_cons]; omega
    rw [List.cons_append, hlast, hlength]
    cases hc : p c with
    | false => rw [runsFrom_cons_of_not hc, runsFrom_cons_of_not hc, hrest]
    | true =>
      rcases runsFrom_cons_of hc before pos cs with
        ⟨r, rs, hnear, hstart, hruns⟩ | ⟨hapart, hruns⟩
      · rw [hnear, List.map_cons, List.cons_append] at hrest
        rw [hruns, runsFrom_cons_of_joined hc hrest (Run.closeAt_start.trans hstart),
          List.map_cons, List.cons_append, Run.closeAt_lengthened hstart]
      · -- No run starts right behind `c` on either side of the cut.
        rw [hruns, runsFrom_cons_of_apart hc, hrest, List.map_cons, List.cons_append]
        · congr 1
          cases cs with
          | nil => exact (if_pos rfl).symm
          | cons d ds =>
            have hlonger : pos + 1 < pos + 1 + (d :: ds).length := by rw [List.length_cons]; omega
            exact (Run.closeAt_of_ne (Nat.ne_of_lt hlonger)).symm
        · intro r hr
          rw [hrest, List.head?_append, Option.mem_def, Option.or_eq_some_iff] at hr
          rcases hr with hnear | ⟨-, hfar⟩
          · rw [List.head?_map] at hnear
            obtain ⟨near, hmem, rfl⟩ := Option.map_eq_some_iff.mp hnear
            rw [Run.closeAt_start]
            exact hapart near hmem
          · have hlt := lt_start_of_mem ht (List.mem_of_head? hfar)
            omega

/-- The runs behind characters that are in none. -/
theorem runsFrom_append_of_not {s : Text} (h : ∀ c ∈ s, p c = false) (before : Option Char)
    (pos : Nat) (t : Text) :
    runsFrom p before pos (s ++ t) = runsFrom p (s.getLast?.or before) (pos + s.length) t := by
  induction s generalizing before pos with
  | nil => rfl
  | cons c cs ih =>
    have hlast : (c :: cs).getLast?.or before = cs.getLast?.or (some c) := by
      rw [List.getLast?_cons]; cases cs.getLast? <;> rfl
    rw [List.cons_append, runsFrom_cons_of_not (h c List.mem_cons_self),
      ih fun d hd => h d (List.mem_cons_of_mem _ hd), hlast, List.length_cons, Nat.add_assoc,
      Nat.add_comm 1]

/-- A text of one kind of character is one run. -/
theorem runsFrom_of_all {s : Text} (hne : s ≠ []) (h : ∀ c ∈ s, p c = true)
    (before : Option Char) (pos : Nat) : runsFrom p before pos s = [⟨before, pos, s, none⟩] := by
  induction s generalizing before pos with
  | nil => exact absurd rfl hne
  | cons c cs ih =>
    have hc := h c List.mem_cons_self
    cases cs with
    | nil => exact runsFrom_cons_of_apart hc nofun
    | cons d ds =>
      have hrest := ih (List.cons_ne_nil d ds) (fun e he => h e (List.mem_cons_of_mem _ he))
        (some c) (pos + 1)
      rw [runsFrom_cons_of_joined hc hrest rfl]

/-! ### Texts that begin with the same words -/

/-- The text is empty or starts with a space. -/
def StartsApart (t : Text) : Prop := ∀ c ∈ t.head?, c = ' '

/-- The texts are the same before index `n`, and each has a space at `n` or ends there. -/
structure AgreeTo (n : Nat) (s t : Text) : Prop where
  take_eq : s.take n = t.take n
  left : StartsApart (s.drop n)
  right : StartsApart (t.drop n)

variable {s t : Text} {n : Nat}

/-- What is left of a text starts apart if a space stands at its first index, or nothing. -/
theorem startsApart_drop_iff : StartsApart (t.drop n) ↔ ∀ c ∈ t[n]?, c = ' ' := by
  rw [StartsApart, List.head?_drop]

theorem StartsApart.eq_nil_or_space_cons (h : StartsApart t) :
    t = [] ∨ ∃ rest, t = ' ' :: rest := by
  cases t with
  | nil => exact .inl rfl
  | cons c rest => exact .inr ⟨rest, by rw [h c rfl]⟩

theorem StartsApart.head_eq_false (h : StartsApart t) (hp : p ' ' = false) :
    ∀ c ∈ t.head?, p c = false := fun c hc => by rw [h c hc]; exact hp

/-- Texts that agree up to an index have the same characters before it. -/
theorem AgreeTo.getElem?_eq (h : AgreeTo n s t) {i : Nat} (hi : i < n) : s[i]? = t[i]? := by
  rw [← List.getElem?_take_of_lt hi, h.take_eq, List.getElem?_take_of_lt hi]

/-- Texts that agree up to an index agree up to each space before it. -/
theorem AgreeTo.of_space (h : AgreeTo n s t) {m : Nat} (hmn : m < n) (hspace : s[m]? = some ' ') :
    AgreeTo m s t := by
  refine ⟨?_, ?_, ?_⟩
  · rw [← Nat.min_eq_left (Nat.le_of_lt hmn), ← List.take_take, h.take_eq, List.take_take]
  · rw [startsApart_drop_iff, hspace]
    exact fun c hc => (Option.some.inj hc).symm
  · rw [startsApart_drop_iff, ← h.getElem?_eq hmn, hspace]
    exact fun c hc => (Option.some.inj hc).symm

/-! ### Runs in texts that agree -/

/-- A run that ends where the texts agree stands in both, though what stands behind it may
differ. -/
theorem AgreeTo.exists_run (h : AgreeTo n s t) (hp : p ' ' = false) {r : Run} (hr : r ∈ runs p s)
    (hstop : r.stop ≤ n) : ∃ r' ∈ runs p t, r'.start = r.start ∧ r'.body = r.body := by
  have hlength : r.stop ≤ (s.take n).length := by
    have hle := Run.stop_le_length_of_mem hr
    rw [List.length_take]
    omega
  have hs := runsFrom_append (h.left.head_eq_false hp) (s.take n) none 0
  have ht := runsFrom_append (h.right.head_eq_false hp) (s.take n) none 0
  rw [List.take_append_drop] at hs
  rw [h.take_eq, List.take_append_drop, ← h.take_eq] at ht
  rw [runs, hs] at hr
  rcases List.mem_append.mp hr with hr | hr
  · obtain ⟨near, hnear, rfl⟩ := List.mem_map.mp hr
    refine ⟨near.closeAt (0 + (s.take n).length) (t.drop n).head?, ?_, ?_, ?_⟩
    · rw [runs, ht]
      exact List.mem_append_left _ (List.mem_map_of_mem hnear)
    · rw [Run.closeAt_start, Run.closeAt_start]
    · rw [Run.closeAt_body, Run.closeAt_body]
  · have hlt := lt_start_of_mem (h.left.head_eq_false hp) hr
    have hrun : r.start ≤ r.stop := Nat.le_add_right _ _
    omega

/-- What a character at index `pos` makes of the places of the runs behind it. -/
def growPlaces (pos : Nat) (c : Char) : List (Nat × Text) → List (Nat × Text)
  | [] => [(pos, [c])]
  | (start, body) :: more =>
    if start = pos + 1 then (pos, c :: body) :: more else (pos, [c]) :: (start, body) :: more

/-- Where runs stand depends on where the runs behind them stand, and not on neighbours. -/
theorem map_place_runsFrom_cons {c : Char} (hc : p c = true) (before : Option Char) (pos : Nat)
    (cs : Text) :
    (runsFrom p before pos (c :: cs)).map Run.place =
      growPlaces pos c ((runsFrom p (some c) (pos + 1) cs).map Run.place) := by
  rcases runsFrom_cons_of hc before pos cs with ⟨r, rs, hrest, hstart, hruns⟩ | ⟨hapart, hruns⟩
  · rw [hruns, hrest]
    exact (if_pos hstart).symm
  · rw [hruns]
    cases hrest : runsFrom p (some c) (pos + 1) cs with
    | nil => rfl
    | cons r rs => exact (if_neg (hapart r (by rw [hrest]; rfl))).symm

/-- Runs are decided by the characters that have the property. -/
theorem map_place_runsFrom {s t : Text} (hlength : s.length = t.length)
    (h : ∀ i : Nat, s[i]?.filter p = t[i]?.filter p) (before before' : Option Char) (pos : Nat) :
    (runsFrom p before pos s).map Run.place = (runsFrom p before' pos t).map Run.place := by
  induction s generalizing t before before' pos with
  | nil => rw [List.eq_nil_of_length_eq_zero hlength.symm]; rfl
  | cons c cs ih =>
    obtain ⟨d, ds, rfl⟩ := List.exists_cons_of_length_eq_add_one hlength.symm
    have hrest := ih (Nat.succ.inj hlength) (fun i => h (i + 1)) (some c) (some d) (pos + 1)
    have hhead : (some c).filter p = (some d).filter p := h 0
    rw [Option.filter_some, Option.filter_some] at hhead
    cases hc : p c with
    | false =>
      have hd : p d = false := by
        cases hd : p d with
        | false => rfl
        | true => rw [hc, hd] at hhead; cases hhead
      rw [runsFrom_cons_of_not hc, runsFrom_cons_of_not hd]
      exact hrest
    | true =>
      have hd : p d = true := by
        cases hd : p d with
        | false => rw [hc, hd] at hhead; cases hhead
        | true => rfl
      obtain rfl : c = d := by
        rw [if_pos hc, if_pos hd] at hhead
        exact Option.some.inj hhead
      rw [map_place_runsFrom_cons hc, map_place_runsFrom_cons hc, hrest]

/-- Texts that have the same characters with the property at each index have the same runs, but for
their neighbours. -/
theorem exists_run_of_same_filter {s t : Text} (hlength : s.length = t.length)
    (h : ∀ i : Nat, s[i]?.filter p = t[i]?.filter p) {r : Run} (hr : r ∈ runs p s) :
    ∃ r' ∈ runs p t, r'.start = r.start ∧ r'.body = r.body := by
  have hmem : r.place ∈ (runs p s).map Run.place := List.mem_map_of_mem hr
  rw [runs, map_place_runsFrom hlength h none none 0] at hmem
  obtain ⟨r', hr', hplace⟩ := List.mem_map.mp hmem
  exact ⟨r', hr', (Prod.mk.inj hplace).1, (Prod.mk.inj hplace).2⟩

end Text

end Passcode
