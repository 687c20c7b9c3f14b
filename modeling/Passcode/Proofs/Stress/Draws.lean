import Passcode.Stress.Message

/-!
# Draws — the tries for a number, and when a source is given up

Each try for a number of `k` bits takes as many words as hold the bits, and what it gives depends on
these words alone (`Draw.tryAt`, `Draw.bits_eq`).  A draw below a bound gives the first number below
it (`Draw.belowFrom_of_first`), and gives the source up exactly if each of its tries fails
(`Draw.belowFrom_of_fails`).  A choice is one of the entries (`Draw.choice_cases`).

`embed_cases`: a code that is embedded by a seed stands in one of the templates, unless the first
thousand words of the seed all start with three ones.
-/

namespace Passcode

namespace WordSource

variable {σ : Type} [WordSource σ]

/-- The source behind its first `n` words. -/
def skip : Nat → σ → σ
  | 0, s => s
  | n + 1, s => skip n (next s).2

/-- The word behind the first `n` words of a source. -/
def wordAt (n : Nat) (s : σ) : Nat := (next (skip n s)).1.toNat

/-- Bits are skipped one after the other. -/
theorem skip_skip (m n : Nat) (s : σ) : skip n (skip m s) = skip (m + n) s := by
  induction m generalizing s with
  | zero => rw [Nat.zero_add, skip]
  | succ m ih => rw [Nat.succ_add, skip, skip, ih]

end WordSource

namespace Draw

open WordSource

section Bind

variable {σ α β : Type}

theorem bind_apply (d : Draw σ α) (f : α → Draw σ β) (s : σ) :
    (d >>= f) s = d s >>= fun r => f r.1 r.2 := rfl

/-- The second of two draws goes on where the first left the source. -/
theorem bind_of_ok {d : Draw σ α} (f : α → Draw σ β) {s s' : σ} {x : α} (h : d s = .ok (x, s')) :
    (d >>= f) s = f x s' := by
  rw [bind_apply, h]
  rfl

/-- Behind a draw that halts there is no other. -/
theorem bind_of_error {d : Draw σ α} (f : α → Draw σ β) {s : σ} {halt : Halt σ}
    (h : d s = .error halt) : (d >>= f) s = .error halt := by
  rw [bind_apply, h]
  rfl

end Bind

variable {σ : Type} [WordSource σ]

/-! ### Tries -/

/-- The number of `n` full words from the start of a source, the first of them the lowest, and of
the top `rest` bits of one more. -/
def numberOf (rest : Nat) : Nat → σ → Nat
  | 0, s => if rest = 0 then 0 else wordAt 0 s >>> (32 - rest)
  | n + 1, s => numberOf rest n (skip 1 s) <<< 32 + wordAt 0 s

/-- How many words are taken for a number of `k` bits. -/
def width (k : Nat) : Nat := if k % 32 = 0 then k / 32 else k / 32 + 1

/-- What the try with index `j` gives, the tries for numbers of `k` bits being made one after the
other from the start of a source. -/
def tryAt (k : Nat) (s : σ) (j : Nat) : Nat := numberOf (k % 32) (k / 32) (skip (j * width k) s)

/-- The first `tries` tries for a number below `bound` all fail. -/
def Fails (bound tries : Nat) (s : σ) : Prop := ∀ j < tries, bound ≤ tryAt (bound.log2 + 1) s j

/-- Whole words and the rest of one are drawn as a number, and the source goes on behind them. -/
theorem bitsOf_eq (rest n : Nat) (s : σ) :
    bitsOf rest n s = .ok (numberOf rest n s, skip (if rest = 0 then n else n + 1) s) := by
  induction n generalizing s with
  | zero =>
    rw [bitsOf, numberOf]
    split <;> rfl
  | succ n ih =>
    rw [bitsOf]
    show (bitsOf rest n (skip 1 s) >>= fun r => .ok (r.1 <<< 32 + wordAt 0 s, r.2)) = _
    rw [ih, numberOf, skip_skip, Nat.add_comm 1]
    show Except.ok _ = _
    split <;> rfl

/-- A number of `k` bits is what the first try gives, and behind it stands the second. -/
theorem bits_eq (k : Nat) (s : σ) : bits k s = .ok (tryAt k s 0, skip (width k) s) := by
  rw [bits, bitsOf_eq, tryAt, width, Nat.zero_mul, skip]

theorem tryAt_succ (k : Nat) (s : σ) (j : Nat) :
    tryAt k (skip (width k) s) j = tryAt k s (j + 1) := by
  rw [tryAt, tryAt, skip_skip, Nat.succ_mul, Nat.add_comm]

/-- A number of less than 32 bits is the top of one word. -/
theorem tryAt_of_short {k : Nat} (hpos : 0 < k) (hk : k < 32) (s : σ) (j : Nat) :
    tryAt k s j = wordAt j s >>> (32 - k) := by
  have hrest : k % 32 = k := Nat.mod_eq_of_lt hk
  have hne : k ≠ 0 := Nat.ne_of_gt hpos
  rw [tryAt, width, hrest, Nat.div_eq_of_lt hk, if_neg hne, numberOf, if_neg hne, Nat.zero_add,
    Nat.mul_one, wordAt, wordAt, skip_skip, Nat.add_zero]

theorem belowFrom_succ (bound k : Nat) (place : σ) (tries : Nat) (s : σ) :
    belowFrom bound k place (tries + 1) s =
      if tryAt k s 0 < bound then .ok (tryAt k s 0, skip (width k) s)
      else belowFrom bound k place tries (skip (width k) s) := by
  rw [belowFrom, bind_of_ok _ (bits_eq k s)]
  split <;> rfl

/-- **The first number below the bound** is what is drawn, if it is among the tries. -/
theorem belowFrom_of_first {bound k tries j : Nat} (place : σ) {s : σ} (hj : j < tries)
    (hfound : tryAt k s j < bound) (hbefore : ∀ i < j, bound ≤ tryAt k s i) :
    belowFrom bound k place tries s = .ok (tryAt k s j, skip ((j + 1) * width k) s) := by
  induction j generalizing s tries with
  | zero =>
    obtain ⟨tries, rfl⟩ := Nat.exists_eq_succ_of_ne_zero (Nat.ne_zero_of_lt hj)
    rw [belowFrom_succ, if_pos hfound, Nat.zero_add, Nat.one_mul]
  | succ j ih =>
    obtain ⟨tries, rfl⟩ := Nat.exists_eq_succ_of_ne_zero (Nat.ne_zero_of_lt hj)
    have hfirst : ¬ tryAt k s 0 < bound := Nat.not_lt.mpr (hbefore 0 (Nat.succ_pos j))
    rw [belowFrom_succ, if_neg hfirst, ih (Nat.lt_of_succ_lt_succ hj)
      (by rw [tryAt_succ]; exact hfound)
      (fun i hi => by rw [tryAt_succ]; exact hbefore (i + 1) (Nat.succ_lt_succ hi)),
      tryAt_succ, skip_skip, Nat.succ_mul (j + 1), Nat.add_comm (width k)]

/-- **A source is given up** where all tries fail. -/
theorem belowFrom_of_fails {bound k tries : Nat} (place : σ) {s : σ}
    (h : ∀ j < tries, bound ≤ tryAt k s j) :
    belowFrom bound k place tries s = .error (.givenUp bound place) := by
  induction tries generalizing s with
  | zero => rfl
  | succ tries ih =>
    rw [belowFrom_succ, if_neg (Nat.not_lt.mpr (h 0 (Nat.succ_pos tries)))]
    refine ih fun j hj => ?_
    rw [tryAt_succ]
    exact h (j + 1) (Nat.succ_lt_succ hj)

/-- The tries end with the first number below the bound, or all of them fail. -/
theorem belowFrom_cases (bound k : Nat) (place : σ) (tries : Nat) (s : σ) :
    (∃ n < bound, ∃ s', belowFrom bound k place tries s = .ok (n, s')) ∨
      belowFrom bound k place tries s = .error (.givenUp bound place) ∧
        ∀ j < tries, bound ≤ tryAt k s j := by
  induction tries generalizing s with
  | zero => exact .inr ⟨rfl, fun j hj => absurd hj (Nat.not_lt_zero j)⟩
  | succ tries ih =>
    rw [belowFrom_succ]
    by_cases hlt : tryAt k s 0 < bound
    · rw [if_pos hlt]
      exact .inl ⟨_, hlt, _, rfl⟩
    · rw [if_neg hlt]
      refine (ih (skip (width k) s)).imp_right fun ⟨hgiven, htries⟩ => ⟨hgiven, fun j hj => ?_⟩
      cases j with
      | zero => exact Nat.not_lt.mp hlt
      | succ j => exact tryAt_succ k s j ▸ htries j (Nat.lt_of_succ_lt_succ hj)

/-! ### Choices -/

/-- A number below a bound is drawn try by try, as many times as the patience allows. -/
theorem below_eq (patience : Nat) {bound : Nat} (hpos : 0 < bound) (s : σ) :
    below patience bound s = belowFrom bound (bound.log2 + 1) s patience s := by
  rw [below, if_neg (Nat.ne_of_gt hpos)]

/-- A choice is one of the entries, if there are some, or the source is given up. -/
theorem choice_cases {α : Type} (patience : Nat) {entries : List α} (hne : entries ≠ []) (s : σ) :
    (∃ x ∈ entries, ∃ s', choice patience entries s = .ok (x, s')) ∨
      choice patience entries s = .error (.givenUp entries.length s) ∧
        Fails entries.length patience s := by
  have hbelow := below_eq patience (List.length_pos_iff.mpr hne) s
  rcases belowFrom_cases entries.length (entries.length.log2 + 1) s patience s with
    ⟨n, hn, s', heq⟩ | ⟨hgiven, htries⟩
  · refine .inl ⟨entries[n], List.getElem_mem hn, s', ?_⟩
    rw [choice, bind_of_ok _ (hbelow.trans heq), List.getElem?_eq_getElem hn]
    rfl
  · exact .inr ⟨by rw [choice, bind_of_error _ (hbelow.trans hgiven)], htries⟩

end Draw

namespace StressMessage

open WordSource

/-- The first thousand words of a seed all start with three ones, so its source is given up. -/
def GivenUp (seed : Int) : Prop := ∀ i < 1000, 7 ≤ wordAt i (Twister.ofSeed seed) >>> 29

/-- **A code that is embedded stands in one of the templates**, unless the source is given up. -/
theorem embed_cases (seed : Int) (code : Text) :
    (∃ t ∈ templates, embed seed code = .ok (t.fill code)) ∨
      embed seed code = .error .sourceGivenUp ∧ GivenUp seed := by
  have hne : templates ≠ [] := List.cons_ne_nil _ _
  rcases Draw.choice_cases Draw.usualPatience hne (Twister.ofSeed seed) with
    ⟨t, ht, s', heq⟩ | ⟨hgiven, hfails⟩
  · refine .inl ⟨t, ht, ?_⟩
    rw [embed, Draw.valueFrom, drawEmbedded, Draw.bind_of_ok _ heq]
    rfl
  · refine .inr ⟨by rw [embed, Draw.valueFrom, drawEmbedded, Draw.bind_of_error _ hgiven]; rfl,
      fun i hi => ?_⟩
    have hseven : templates.length.log2 + 1 = 3 := by decide
    have htry := hfails i hi
    rw [hseven, Draw.tryAt_of_short (by decide) (by decide)] at htry
    exact htry

end StressMessage

end Passcode
