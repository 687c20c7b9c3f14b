import Passcode.Text.Runs

/-!
# Runs — where the runs of a text stand

* `runs_pairwise`: the runs stand from left to right, with a character between two of them.
* `maximalIn_of_mem_runs`: a run of a text is a maximal stretch of characters with the property,
  given with its place and its two neighbours (`Run.MaximalIn`).
* `Run.slice_of_mem`, `Run.after_of_mem`, `Run.exists_of_mem`: so its body is the stretch between
  its ends, and what is behind it and within it is read off the text.

The runs are built from the right: one step to the left leaves a run as it is, lengthens it, or
opens a new one (`Run.Splits.cons`, `Run.Splits.extend`, `Run.Splits.single`).
-/

namespace Passcode

/-- The run is a stretch of a text that starts at index `pos` behind the character `before`: it is
what stands between `pre` and `post`, all of it has the property `p`, and what is next to it in the
text lacks it. -/
structure Run.Splits (p : Char → Bool) (before : Option Char) (pos : Nat) (t : Text) (r : Run)
    (pre post : Text) : Prop where
  text_eq : t = pre ++ r.body ++ post
  start_eq : r.start = pos + pre.length
  before_eq : r.before = pre.getLast?.or before
  after_eq : r.after = post.head?
  body_ne_nil : r.body ≠ []
  body_all : ∀ c ∈ r.body, p c = true
  left : ∀ c ∈ pre.getLast?, p c = false
  right : ∀ c ∈ post.head?, p c = false

/-- The run is a maximal stretch of characters with the property `p` in the text. -/
def Run.MaximalIn (p : Char → Bool) (t : Text) (r : Run) : Prop :=
  ∃ pre post, r.Splits p none 0 t pre post

namespace Run.Splits

variable {p : Char → Bool} {before : Option Char} {pos : Nat} {c : Char} {cs pre post : Text}
  {r : Run}

/-- A run that does not start right behind `c` is a run behind `c` too, and so is one that does if
`c` lacks the property. -/
theorem cons (h : r.Splits p (some c) (pos + 1) cs pre post)
    (hfar : p c = false ∨ r.start ≠ pos + 1) : r.Splits p before pos (c :: cs) (c :: pre) post where
  text_eq := by rw [h.text_eq]; rfl
  start_eq := by rw [h.start_eq, List.length_cons]; omega
  before_eq := by rw [h.before_eq, List.getLast?_cons]; cases pre.getLast? <;> rfl
  after_eq := h.after_eq
  body_ne_nil := h.body_ne_nil
  body_all := h.body_all
  left := by
    intro d hd
    rw [List.getLast?_cons] at hd
    cases hlast : pre.getLast? with
    | some e => rw [hlast] at hd; exact h.left d (hlast ▸ hd)
    | none =>
      rw [hlast] at hd; cases hd
      rcases hfar with hc | hfar
      · exact hc
      · rw [List.getLast?_eq_none_iff] at hlast
        exact absurd (by rw [h.start_eq, hlast, List.length_nil]) hfar
  right := h.right

/-- A run that starts right behind `c` is lengthened by it. -/
theorem extend (h : r.Splits p (some c) (pos + 1) cs pre post) (hstart : r.start = pos + 1)
    (hc : p c = true) :
    Splits p before pos (c :: cs)
      { r with before := before, start := pos, body := c :: r.body } [] post where
  text_eq := by
    have hpre : pre = [] := List.eq_nil_of_length_eq_zero (by have := h.start_eq; omega)
    rw [h.text_eq, hpre]; rfl
  start_eq := rfl
  before_eq := rfl
  after_eq := h.after_eq
  body_ne_nil := List.cons_ne_nil _ _
  body_all := List.forall_mem_cons.mpr ⟨hc, h.body_all⟩
  left := nofun
  right := h.right

/-- A character with the property is a run of its own if the next one lacks it. -/
theorem single (hc : p c = true) (hnext : ∀ d ∈ cs.head?, p d = false) :
    Splits p before pos (c :: cs) ⟨before, pos, [c], cs.head?⟩ [] cs where
  text_eq := rfl
  start_eq := rfl
  before_eq := rfl
  after_eq := rfl
  body_ne_nil := List.cons_ne_nil _ _
  body_all := List.forall_mem_singleton.mpr hc
  left := nofun
  right := hnext

end Run.Splits

namespace Text

variable {p : Char → Bool}

/-! ### One step to the left -/

theorem runsFrom_cons_of_not {c : Char} (hc : p c = false) (before : Option Char) (pos : Nat)
    (cs : Text) : runsFrom p before pos (c :: cs) = runsFrom p (some c) (pos + 1) cs := by
  simp only [runsFrom, hc, Bool.false_eq_true, if_false]

/-- A character with the property lengthens the run that starts behind it, or is a run of its
own. -/
theorem runsFrom_cons_of {c : Char} (hc : p c = true) (before : Option Char) (pos : Nat)
    (cs : Text) :
    (∃ r rs, runsFrom p (some c) (pos + 1) cs = r :: rs ∧ r.start = pos + 1 ∧
      runsFrom p before pos (c :: cs) =
        { r with before := before, start := pos, body := c :: r.body } :: rs) ∨
    ((∀ r ∈ (runsFrom p (some c) (pos + 1) cs).head?, r.start ≠ pos + 1) ∧
      runsFrom p before pos (c :: cs) =
        { before := before, start := pos, body := [c], after := cs.head? } ::
          runsFrom p (some c) (pos + 1) cs) := by
  simp only [runsFrom, hc, if_true]
  cases h : runsFrom p (some c) (pos + 1) cs with
  | nil => exact .inr ⟨nofun, rfl⟩
  | cons r rs =>
    by_cases hr : r.start = pos + 1
    · exact .inl ⟨r, rs, rfl, hr, if_pos hr⟩
    · refine .inr ⟨fun s hs => ?_, if_neg hr⟩
      cases hs; exact hr

/-- A run starts right where the text does if the first character has the property. -/
theorem exists_run_at_start {c : Char} (hc : p c = true) (before : Option Char) (pos : Nat)
    (cs : Text) : ∃ r rs, runsFrom p before pos (c :: cs) = r :: rs ∧ r.start = pos := by
  rcases runsFrom_cons_of hc before pos cs with ⟨r, rs, -, -, h⟩ | ⟨-, h⟩
  · exact ⟨_, rs, h, rfl⟩
  · exact ⟨_, _, h, rfl⟩

/-! ### Order -/

/-- Runs stand in order, and no two of them touch. -/
theorem runsFrom_order (before : Option Char) (pos : Nat) (t : Text) :
    (∀ r ∈ runsFrom p before pos t, pos ≤ r.start ∧ r.start < r.stop) ∧
      (runsFrom p before pos t).Pairwise (fun a b => a.stop < b.start) := by
  induction t generalizing before pos with
  | nil => exact ⟨nofun, List.Pairwise.nil⟩
  | cons c cs ih =>
    obtain ⟨hbound, hpair⟩ := ih (some c) (pos + 1)
    cases hc : p c with
    | false =>
      rw [runsFrom_cons_of_not hc]
      refine ⟨fun r hr => ?_, hpair⟩
      have := hbound r hr; omega
    | true =>
      rcases runsFrom_cons_of hc before pos cs with ⟨r, rs, hrest, hr, h⟩ | ⟨hr, h⟩
      · rw [hrest] at hbound hpair
        obtain ⟨hhead, htail⟩ := List.pairwise_cons.mp hpair
        rw [h]
        refine ⟨fun s hs => ?_, List.pairwise_cons.mpr ⟨fun s hs => ?_, htail⟩⟩
        · rcases List.mem_cons.mp hs with rfl | hs
          · simp [Run.stop]
          · have := hbound s (List.mem_cons_of_mem _ hs); omega
        · have := hhead s hs
          simp only [Run.stop, List.length_cons] at this ⊢
          omega
      · rw [h]
        -- The first run behind `c` starts further off, and the others lie behind it.
        have hafter : ∀ s ∈ runsFrom p (some c) (pos + 1) cs, pos + 1 < s.start := by
          intro s hs
          cases hrest : runsFrom p (some c) (pos + 1) cs with
          | nil => rw [hrest] at hs; cases hs
          | cons r rs =>
            rw [hrest] at hs hr hbound hpair
            have hne := hr r rfl
            have hge := hbound r List.mem_cons_self
            rcases List.mem_cons.mp hs with rfl | hs
            · omega
            · have := (List.pairwise_cons.mp hpair).1 s hs; omega
        refine ⟨fun s hs => ?_, List.pairwise_cons.mpr ⟨fun s hs => ?_, hpair⟩⟩
        · rcases List.mem_cons.mp hs with rfl | hs
          · simp [Run.stop]
          · have := hbound s hs; omega
        · simpa [Run.stop] using hafter s hs

/-- The runs of a text stand from left to right, with a character between two of them. -/
theorem runs_pairwise (p : Char → Bool) (t : Text) :
    (runs p t).Pairwise (fun a b => a.stop < b.start) := (runsFrom_order none 0 t).2

/-- Two runs of a text are the same, or one stands wholly before the other. -/
theorem runs_apart {t : Text} {a b : Run} (ha : a ∈ runs p t) (hb : b ∈ runs p t) :
    a = b ∨ a.stop < b.start ∨ b.stop < a.start := by
  have hpair := runs_pairwise p t
  generalize runs p t = rs at ha hb hpair
  induction hpair with
  | nil => cases ha
  | cons hhead _ ih =>
    rcases List.mem_cons.mp ha with rfl | ha'
    · rcases List.mem_cons.mp hb with rfl | hb'
      · exact .inl rfl
      · exact .inr (.inl (hhead b hb'))
    · rcases List.mem_cons.mp hb with rfl | hb'
      · exact .inr (.inr (hhead a ha'))
      · exact ih ha' hb'

/-! ### What a run is -/

/-- Only the first run can start where the search does. -/
theorem start_ne_of_mem_tail {before : Option Char} {pos : Nat} {t : Text} {r s : Run}
    {rs : List Run} (h : runsFrom p before pos t = r :: rs) (hs : s ∈ rs) : s.start ≠ pos := by
  obtain ⟨hbound, hpair⟩ := runsFrom_order (p := p) before pos t
  rw [h] at hbound hpair
  have hr := hbound r List.mem_cons_self
  have hlt := (List.pairwise_cons.mp hpair).1 s hs
  omega

/-- Where no run starts right at the start of a text, the first character lacks the property. -/
theorem head_of_start_ne {before : Option Char} {pos : Nat} {t : Text}
    (h : ∀ r ∈ (runsFrom p before pos t).head?, r.start ≠ pos) : ∀ d ∈ t.head?, p d = false := by
  intro d hd
  cases t with
  | nil => cases hd
  | cons e es =>
    cases hd
    cases hp : p d with
    | false => rfl
    | true =>
      obtain ⟨r, rs, hrun, hr⟩ := exists_run_at_start hp before pos es
      exact absurd hr (h r (by rw [hrun]; rfl))

/-- The runs of a text are the stretches between characters that lack the property; only the left
end of one that starts where the text does depends on what stands before. -/
theorem exists_splits {before : Option Char} {pos : Nat} {t : Text} {r : Run}
    (h : r ∈ runsFrom p before pos t) : ∃ pre post, r.Splits p before pos t pre post := by
  induction t generalizing before pos r with
  | nil => cases h
  | cons c cs ih =>
    have later : ∀ {s : Run}, s ∈ runsFrom p (some c) (pos + 1) cs →
        (p c = false ∨ s.start ≠ pos + 1) →
        ∃ pre post, s.Splits p before pos (c :: cs) pre post := by
      intro s hs hfar
      obtain ⟨pre, post, hsplit⟩ := ih hs
      exact ⟨c :: pre, post, hsplit.cons hfar⟩
    cases hc : p c with
    | false =>
      rw [runsFrom_cons_of_not hc] at h
      exact later h (.inl hc)
    | true =>
      rcases runsFrom_cons_of hc before pos cs with ⟨s, rs, hrest, hs, hcons⟩ | ⟨hs, hcons⟩
      · rw [hcons] at h
        rcases List.mem_cons.mp h with rfl | h
        · obtain ⟨pre, post, hsplit⟩ := ih (hrest ▸ List.mem_cons_self)
          exact ⟨[], post, hsplit.extend hs hc⟩
        · exact later (hrest ▸ List.mem_cons_of_mem _ h) (.inr (start_ne_of_mem_tail hrest h))
      · rw [hcons] at h
        rcases List.mem_cons.mp h with rfl | h
        · exact ⟨[], cs, Run.Splits.single hc (head_of_start_ne hs)⟩
        · -- No run starts right behind `c`: the first does not, and the others lie behind it.
          refine later h (.inr ?_)
          cases hrest : runsFrom p (some c) (pos + 1) cs with
          | nil => rw [hrest] at h; cases h
          | cons s rs =>
            rw [hrest] at h hs
            rcases List.mem_cons.mp h with rfl | h
            · exact hs r rfl
            · exact start_ne_of_mem_tail hrest h

/-- A run that is found is maximal. -/
theorem maximalIn_of_mem_runs {t : Text} {r : Run} (h : r ∈ runs p t) : r.MaximalIn p t :=
  exists_splits h

/-! ### Stretches -/

theorem boundOf_natCast (n i : Nat) : boundOf n i = min i n := by
  rw [boundOf, if_neg (by omega), Int.toNat_natCast]

/-- With bounds that are not negative, a slice is the beginning up to the upper one without that up
to the lower one. -/
theorem slice_natCast (t : Text) (a b : Nat) : slice t a b = (t.take b).drop a := by
  rw [slice, boundOf_natCast, boundOf_natCast, ← List.take_eq_take_min]
  rcases Nat.le_total a t.length with h | h
  · rw [Nat.min_eq_left h]
  · rw [Nat.min_eq_right h, List.drop_eq_nil_of_le (by rw [List.length_take]; omega),
      List.drop_eq_nil_of_le (by rw [List.length_take]; omega)]

/-- A stretch is cut in two at any index within it. -/
theorem slice_append (t : Text) {a b c : Nat} (hab : a ≤ b) (hbc : b ≤ c) :
    slice t a b ++ slice t b c = slice t a c := by
  obtain ⟨m, rfl⟩ := Nat.exists_eq_add_of_le hab
  obtain ⟨n, rfl⟩ := Nat.exists_eq_add_of_le hbc
  have hn : a + m + n - (a + m) = n := by omega
  have hmn : a + m + n - a = m + n := by omega
  simp only [slice_natCast, List.drop_take, Nat.add_sub_cancel_left, hn, hmn]
  rw [List.take_add, List.drop_drop]

/-- The characters of a slice are those of the text, from its lower bound on. -/
theorem slice_getElem? (t : Text) {a b i : Nat} (h : a + i < b) :
    (slice t a b)[i]? = t[a + i]? := by
  rw [slice_natCast, List.getElem?_drop, List.getElem?_take_of_lt h]

theorem slice_succ {t : Text} {i : Nat} {c : Char} (h : t[i]? = some c) :
    slice t i (i + 1 : Nat) = [c] := by
  obtain ⟨hi, hget⟩ := List.getElem?_eq_some_iff.mp h
  rw [slice_natCast, List.drop_take, Nat.add_sub_cancel_left, List.drop_eq_getElem_cons hi, hget]
  rfl

theorem length_slice {t : Text} (a : Nat) {b : Nat} (h : b ≤ t.length) :
    (slice t a b).length = b - a := by
  rw [slice_natCast, List.length_drop, List.length_take, Nat.min_eq_left h]

/-- A slice is part of the text, whatever its bounds are. -/
theorem slice_infix (t : Text) (first last : Int) : slice t first last <:+: t :=
  (List.drop_suffix _ _).isInfix.trans (List.take_prefix _ _).isInfix

end Text

/-! ### What a run is a stretch of -/

namespace Run

variable {p : Char → Bool} {t : Text} {r : Run}

/-- A run is the slice between its ends. -/
theorem slice_of_mem (h : r ∈ Text.runs p t) : Text.slice t r.start r.stop = r.body := by
  obtain ⟨pre, post, hsplit⟩ := Text.maximalIn_of_mem_runs h
  rw [Text.slice_natCast, hsplit.text_eq, stop, hsplit.start_eq, Nat.zero_add,
    ← List.length_append, List.take_left, List.drop_left]

/-- A run has only characters of its kind. -/
theorem forall_of_mem (h : r ∈ Text.runs p t) : ∀ c ∈ r.body, p c = true := by
  obtain ⟨pre, post, hsplit⟩ := Text.maximalIn_of_mem_runs h
  exact hsplit.body_all

theorem start_lt_stop_of_mem (h : r ∈ Text.runs p t) : r.start < r.stop :=
  ((Text.runsFrom_order none 0 t).1 r h).2

theorem stop_le_length_of_mem (h : r ∈ Text.runs p t) : r.stop ≤ t.length := by
  obtain ⟨pre, post, hsplit⟩ := Text.maximalIn_of_mem_runs h
  rw [stop, hsplit.start_eq, hsplit.text_eq, List.length_append, List.length_append]
  omega

/-- What stands behind a run is the character at its end. -/
theorem after_of_mem (h : r ∈ Text.runs p t) : r.after = t[r.stop]? := by
  obtain ⟨pre, post, hsplit⟩ := Text.maximalIn_of_mem_runs h
  rw [hsplit.after_eq, hsplit.text_eq, stop, hsplit.start_eq, Nat.zero_add, ← List.length_append,
    List.getElem?_append_right (Nat.le_refl _), Nat.sub_self, List.head?_eq_getElem?]

/-- Within a run each character has the property. -/
theorem exists_of_mem (h : r ∈ Text.runs p t) {i : Nat} (hi : r.start ≤ i) (hstop : i < r.stop) :
    ∃ c, t[i]? = some c ∧ p c = true := by
  have hget : (Text.slice t r.start r.stop)[i - r.start]? = t[i]? := by
    rw [Text.slice_getElem? t (by omega)]; congr 1; omega
  rw [slice_of_mem h] at hget
  have hlen : i - r.start < r.body.length := by rw [stop] at hstop; omega
  refine ⟨r.body[i - r.start], ?_, forall_of_mem h _ (List.getElem_mem hlen)⟩
  rw [← hget, List.getElem?_eq_getElem hlen]

end Run

end Passcode
