import Passcode.Proofs.Text.Runs
import Passcode.Text.WordChar

/-!
# Maximal — each maximal stretch is a run, and how two of them lie

The runs of a text are its maximal stretches (`mem_runs_iff`): a run is one, and a maximal stretch
that starts where the text does is the part before the first character without the property, which
is the run that starts there.

Where all characters with one property have another, as the plain letters and digits are word
characters (`isWord_of_alnum`), a run of the first kind lies within a run of the second kind or
apart from it (`Run.apart_or_within`).  It is a run of the second kind itself if it touches no
character of that kind, and a run of the second kind is one of the first if it is made of such
characters (`Run.MaximalIn.widen`, `Run.MaximalIn.narrow`).
-/

namespace Passcode

variable {p q : Char → Bool} {t : Text}

/-! ### All maximal stretches -/

namespace Run.Splits

variable {before : Option Char} {pos : Nat} {post : Text} {r s : Run}

/-- A stretch at the start of a text ends before the first character without the property. -/
theorem body_eq_takeWhile (h : r.Splits p before pos t [] post) : r.body = t.takeWhile p := by
  have hpost : post.takeWhile p = [] := by
    cases post with
    | nil => rfl
    | cons c cs =>
      exact List.takeWhile_cons_of_neg (by rw [h.right c rfl]; exact Bool.false_ne_true)
  rw [h.text_eq, List.nil_append, List.takeWhile_append_of_pos h.body_all, hpost, List.append_nil]

/-- Two stretches at the start of a text are the same. -/
theorem eq_of_nil {post' : Text} (h : r.Splits p before pos t [] post)
    (h' : s.Splits p before pos t [] post') : r = s := by
  have hbody : r.body = s.body := h.body_eq_takeWhile.trans h'.body_eq_takeWhile.symm
  have hpost : post = post' := by
    have htext := h.text_eq.symm.trans h'.text_eq
    rw [hbody] at htext
    exact List.append_cancel_left htext
  have hstart : r.start = s.start := h.start_eq.trans h'.start_eq.symm
  have hbefore : r.before = s.before := h.before_eq.trans h'.before_eq.symm
  have hafter : r.after = s.after := by rw [h.after_eq, h'.after_eq, hpost]
  cases r
  cases s
  cases hbody
  cases hstart
  cases hbefore
  cases hafter
  rfl

end Run.Splits

namespace Text

/-- Each maximal stretch of a text is one of its runs. -/
theorem mem_runsFrom_of_splits {before : Option Char} {pos : Nat} {pre post : Text} {r : Run}
    (h : r.Splits p before pos t pre post) : r ∈ runsFrom p before pos t := by
  induction pre generalizing before pos t with
  | nil =>
    obtain ⟨c, cs, hbody⟩ := List.exists_cons_of_ne_nil h.body_ne_nil
    have ht : t = c :: (cs ++ post) := by rw [h.text_eq, hbody]; rfl
    have hc : p c = true := h.body_all c (hbody ▸ List.mem_cons_self)
    obtain ⟨s, rs, hruns, hstart⟩ := exists_run_at_start hc before pos (cs ++ post)
    rw [← ht] at hruns
    have hs : s ∈ runsFrom p before pos t := hruns ▸ List.mem_cons_self
    obtain ⟨pre', post', hsplit⟩ := exists_splits hs
    have hnil : pre' = [] := List.eq_nil_of_length_eq_zero (by have := hsplit.start_eq; omega)
    subst hnil
    rw [h.eq_of_nil hsplit]
    exact hs
  | cons a pre ih =>
    have ht : t = a :: (pre ++ r.body ++ post) := h.text_eq
    have hstart : r.start = pos + 1 + pre.length := by rw [h.start_eq, List.length_cons]; omega
    have hrest : r ∈ runsFrom p (some a) (pos + 1) (pre ++ r.body ++ post) := ih {
      text_eq := rfl
      start_eq := hstart
      before_eq := by rw [h.before_eq, List.getLast?_cons]; cases pre.getLast? <;> rfl
      after_eq := h.after_eq
      body_ne_nil := h.body_ne_nil
      body_all := h.body_all
      left := fun c hc => h.left c (by rw [List.getLast?_cons, hc]; rfl)
      right := h.right }
    rw [ht]
    cases ha : p a with
    | false => rw [runsFrom_cons_of_not ha]; exact hrest
    | true =>
      rcases runsFrom_cons_of ha before pos (pre ++ r.body ++ post) with
        ⟨s, rs, hruns, hs, hcons⟩ | ⟨-, hcons⟩
      · rw [hcons]
        rw [hruns] at hrest
        rcases List.mem_cons.mp hrest with rfl | hmem
        · -- A run right behind `a` would have `a` as its left neighbour.
          have hpre : pre = [] := List.eq_nil_of_length_eq_zero (by omega)
          rw [h.left a (by rw [hpre]; rfl)] at ha
          cases ha
        · exact List.mem_cons_of_mem _ hmem
      · rw [hcons]
        exact List.mem_cons_of_mem _ hrest

/-- **The runs of a text are its maximal stretches.** -/
theorem mem_runs_iff {r : Run} : r ∈ runs p t ↔ r.MaximalIn p t :=
  ⟨maximalIn_of_mem_runs, fun ⟨_, _, h⟩ => mem_runsFrom_of_splits h⟩

end Text

/-- The runs of a part of a text are those of the part alone, but for their places. -/
theorem Text.exists_mem_runs_of_mem_runsFrom {before : Option Char} {pos : Nat} {t : Text} {r : Run}
    (h : r ∈ runsFrom p before pos t) :
    ∃ s ∈ runs p t, s.body = r.body ∧ r.start = pos + s.start := by
  obtain ⟨pre, post, hsplit⟩ := exists_splits h
  refine ⟨⟨pre.getLast?, pre.length, r.body, post.head?⟩, mem_runs_iff.mpr ⟨pre, post, {
    text_eq := hsplit.text_eq
    start_eq := (Nat.zero_add _).symm
    before_eq := Option.or_none.symm
    after_eq := rfl
    body_ne_nil := hsplit.body_ne_nil
    body_all := hsplit.body_all
    left := hsplit.left
    right := hsplit.right }⟩, rfl, hsplit.start_eq⟩

/-- A text has no more runs than characters. -/
theorem Text.length_runsFrom_le (before : Option Char) (pos : Nat) (t : Text) :
    (runsFrom p before pos t).length ≤ t.length := by
  induction t generalizing before pos with
  | nil => exact Nat.le_refl _
  | cons c cs ih =>
    have hrest := ih (some c) (pos + 1)
    cases hc : p c with
    | false => rw [runsFrom_cons_of_not hc]; exact Nat.le_succ_of_le hrest
    | true =>
      rcases runsFrom_cons_of hc before pos cs with ⟨r, rs, hruns, -, h⟩ | ⟨-, h⟩
      · rw [hruns] at hrest
        rw [h]
        exact Nat.le_succ_of_le hrest
      · rw [h]
        exact Nat.succ_le_succ hrest

/-! ### Two kinds of runs -/

theorem Ranges.covers_of_head {first last n : Nat} (rest : Ranges) (hfirst : first ≤ n)
    (hlast : n ≤ last) : covers ((first, last) :: rest) n = true := by
  rw [covers, if_neg (Nat.not_lt.mpr hfirst), if_pos hlast]

theorem Ranges.covers_cons_of_lt {first last n : Nat} (rest : Ranges) (h : first ≤ last)
    (hn : last < n) : covers ((first, last) :: rest) n = covers rest n := by
  rw [covers, if_neg (by omega), if_neg (by omega)]

theorem Text.toNat_between {a b c : Char} (h : (a ≤ c && c ≤ b) = true) :
    a.toNat ≤ c.toNat ∧ c.toNat ≤ b.toNat := by
  obtain ⟨hlow, hhigh⟩ := Bool.and_eq_true_iff.mp h
  exact ⟨UInt32.le_iff_toNat_le.mp (of_decide_eq_true hlow),
    UInt32.le_iff_toNat_le.mp (of_decide_eq_true hhigh)⟩

/-- The plain digits are the first range of the word characters. -/
theorem Text.isWord_of_digit {c : Char} (h : isAsciiDigit c = true) : isWord c = true := by
  obtain ⟨hlow, hhigh⟩ := toNat_between h
  exact Ranges.covers_of_head _ hlow hhigh

/-- The plain letters are the second and the fourth range of the word characters. -/
theorem Text.isWord_of_letter {c : Char} (h : isAsciiLetter c = true) : isWord c = true := by
  rcases Bool.or_eq_true_iff.mp h with h | h
  · obtain ⟨hlow, hhigh⟩ := toNat_between h
    have hbehind : 0x61 ≤ c.toNat := hlow
    exact (Ranges.covers_cons_of_lt _ (by decide) (by omega)).trans
      ((Ranges.covers_cons_of_lt _ (by decide) (by omega)).trans
        ((Ranges.covers_cons_of_lt _ (by decide) (by omega)).trans
          (Ranges.covers_of_head _ hlow hhigh)))
  · obtain ⟨hlow, hhigh⟩ := toNat_between h
    have hbehind : 0x41 ≤ c.toNat := hlow
    exact (Ranges.covers_cons_of_lt _ (by decide) (by omega)).trans
      (Ranges.covers_of_head _ hlow hhigh)

theorem Text.isWord_of_alnum {c : Char} (h : isAsciiAlnum c = true) : isWord c = true :=
  (Bool.or_eq_true_iff.mp h).elim isWord_of_digit isWord_of_letter

namespace Run

variable {r s : Run}

/-- A run that touches no character of a wider kind is a run of that kind. -/
theorem MaximalIn.widen (hpq : ∀ c, p c = true → q c = true) (h : r.MaximalIn p t)
    (hbefore : ∀ c ∈ r.before, q c = false) (hafter : ∀ c ∈ r.after, q c = false) :
    r.MaximalIn q t := by
  obtain ⟨pre, post, hsplit⟩ := h
  refine ⟨pre, post, { hsplit with
    body_all := fun c hc => hpq c (hsplit.body_all c hc)
    left := fun c hc => hbefore c ?_
    right := fun c hc => hafter c ?_ }⟩
  · rw [hsplit.before_eq, hc]; rfl
  · rw [hsplit.after_eq]; exact hc

/-- A run that is made of characters of a narrower kind is a run of that kind. -/
theorem MaximalIn.narrow (hpq : ∀ c, p c = true → q c = true) (h : r.MaximalIn q t)
    (hbody : ∀ c ∈ r.body, p c = true) : r.MaximalIn p t := by
  obtain ⟨pre, post, hsplit⟩ := h
  have hnot : ∀ c, q c = false → p c = false := fun c hc =>
    Bool.eq_false_iff.mpr fun hp => Bool.eq_false_iff.mp hc (hpq c hp)
  exact ⟨pre, post, { hsplit with
    body_all := hbody
    left := fun c hc => hnot c (hsplit.left c hc)
    right := fun c hc => hnot c (hsplit.right c hc) }⟩

/-- What a run is made of is what stands in the text from its start to its stop. -/
theorem mem_body_iff (h : r ∈ Text.runs p t) {c : Char} :
    c ∈ r.body ↔ ∃ i, r.start ≤ i ∧ i < r.stop ∧ t[i]? = some c := by
  have hlength := Text.length_slice r.start (stop_le_length_of_mem h)
  rw [← slice_of_mem h, List.mem_iff_getElem?]
  constructor
  · rintro ⟨i, hget⟩
    have hi : r.start + i < r.stop := by
      have := (List.getElem?_eq_some_iff.mp hget).1
      omega
    rw [Text.slice_getElem? t hi] at hget
    exact ⟨r.start + i, Nat.le_add_right _ _, hi, hget⟩
  · rintro ⟨i, hstart, hstop, hget⟩
    refine ⟨i - r.start, ?_⟩
    rw [Text.slice_getElem? t (by omega), Nat.add_sub_cancel' hstart]
    exact hget

theorem before_of_mem (h : r ∈ Text.runs p t) {i : Nat} (hi : i + 1 = r.start) :
    r.before = t[i]? := by
  obtain ⟨pre, post, hsplit⟩ := Text.maximalIn_of_mem_runs h
  have hlength := hsplit.start_eq
  rw [hsplit.before_eq, Option.or_none, hsplit.text_eq, List.append_assoc,
    List.getElem?_append_left (by omega), List.getLast?_eq_getElem?]
  congr 1
  omega

theorem before_of_start_zero (h : r ∈ Text.runs p t) (hzero : r.start = 0) : r.before = none := by
  obtain ⟨pre, post, hsplit⟩ := Text.maximalIn_of_mem_runs h
  have hnil : pre = [] := List.eq_nil_of_length_eq_zero (by have := hsplit.start_eq; omega)
  rw [hsplit.before_eq, hnil]
  rfl

/-- The character before a run lacks the property. -/
theorem not_before_of_mem (h : r ∈ Text.runs p t) {i : Nat} (hi : i + 1 = r.start) :
    ∀ c ∈ t[i]?, p c = false := by
  obtain ⟨pre, post, hsplit⟩ := Text.maximalIn_of_mem_runs h
  rw [← before_of_mem h hi, hsplit.before_eq, Option.or_none]
  exact hsplit.left

/-- The character behind a run lacks the property. -/
theorem not_after_of_mem (h : r ∈ Text.runs p t) : ∀ c ∈ t[r.stop]?, p c = false := by
  obtain ⟨pre, post, hsplit⟩ := Text.maximalIn_of_mem_runs h
  rw [← after_of_mem h, hsplit.after_eq]
  exact hsplit.right

/-- A run of one kind lies within a run of a wider kind, or apart from it. -/
theorem apart_or_within (hpq : ∀ c, p c = true → q c = true) (hr : r ∈ Text.runs p t)
    (hs : s ∈ Text.runs q t) :
    r.stop < s.start ∨ s.stop < r.start ∨ s.start ≤ r.start ∧ r.stop ≤ s.stop := by
  -- No neighbour of `s` lies in `r`, for it would have the wider property.
  have outside : ∀ {i : Nat}, (∀ c ∈ t[i]?, q c = false) → i < r.start ∨ r.stop ≤ i := by
    intro i hi
    rcases Nat.lt_or_ge i r.start with hlow | hlow
    · exact .inl hlow
    rcases Nat.lt_or_ge i r.stop with hhigh | hhigh
    · obtain ⟨c, hc, hp⟩ := exists_of_mem hr hlow hhigh
      have hq := hi c hc
      rw [hpq c hp] at hq
      cases hq
    · exact .inr hhigh
  have hspan := start_lt_stop_of_mem hr
  have hspan' := start_lt_stop_of_mem hs
  have hbehind := outside (not_after_of_mem hs)
  rcases Nat.eq_zero_or_pos s.start with hzero | hpos
  · omega
  · have hahead := outside (not_before_of_mem hs (Nat.sub_add_cancel hpos))
    omega

end Run

end Passcode
