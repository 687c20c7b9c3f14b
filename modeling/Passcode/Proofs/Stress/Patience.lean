import Mathlib.Data.Nat.Find
import Passcode.Proofs.Stress.Draws

/-!
# Patience — a draw gives the same value to all who are patient enough

The patience of a draw decides whether its source is given up, and nothing else.  Where it is given
up the draw has made a number below some bound the aim of as many tries as it has patience, and all
of them have failed (`Draw.GivesUp`).  A draw *yields* values with a property if every source has a
patience from which on the draw gives one and the same such value, the source being given up with
less, or if the source is given up with every patience (`Draw.Yields`).  In the latter case all who
are patient enough end at one and the same number, of which no try ever succeeds (`Draw.Endless`).

* The first of many draws are the draws of a shorter row (`Draw.times_take`).
* A draw that goes on from draws that yield, yields itself (`Draw.Yields.bind`), and so does a row
  of them (`Draw.Yields.times`).
* A number below a bound yields (`Draw.yields_below`), and so do a number between two bounds, a
  choice and a roll (`Draw.yields_between`, `Draw.yields_choice`, `Draw.yields_unit`).
-/

namespace Passcode

namespace Draw

open WordSource

variable {σ α β : Type}

/-- Two draws give a value exactly if the second does from where the first left the source. -/
theorem bind_eq_ok_iff {d : Draw σ α} {f : α → Draw σ β} {s : σ} {r : β × σ} :
    (d >>= f) s = .ok r ↔ ∃ x s', d s = .ok (x, s') ∧ f x s' = .ok r := by
  cases h : d s with
  | error halt =>
    rw [bind_of_error f h]
    exact iff_of_false (fun h => by cases h) (fun ⟨_, _, h, _⟩ => by cases h)
  | ok p =>
    rw [bind_of_ok f h]
    exact ⟨fun h => ⟨p.1, p.2, rfl, h⟩, fun ⟨_, _, h, hf⟩ => by cases h; exact hf⟩

/-! ### The first of many draws -/

/-- The first values of a row of draws are those of a shorter row. -/
theorem times_take (d : Draw σ α) {m n : Nat} (hmn : m ≤ n) {s s' : σ} {xs : List α}
    (h : times d n s = .ok (xs, s')) : ∃ s'', times d m s = .ok (xs.take m, s'') := by
  induction m generalizing n s xs with
  | zero => exact ⟨s, rfl⟩
  | succ m ih =>
    obtain ⟨n, rfl⟩ : ∃ k, n = k + 1 := Nat.exists_eq_succ_of_ne_zero (by omega)
    obtain ⟨x, s₁, hx, hrest⟩ := bind_eq_ok_iff.mp h
    obtain ⟨ys, s₂, hys, hcons⟩ := bind_eq_ok_iff.mp hrest
    cases hcons
    obtain ⟨s'', htake⟩ := ih (Nat.le_of_succ_le_succ hmn) hys
    exact ⟨s'', bind_eq_ok_iff.mpr ⟨x, s₁, hx, bind_eq_ok_iff.mpr ⟨_, s'', htake, rfl⟩⟩⟩

variable [WordSource σ]

/-! ### Giving a source up -/

/-- The draw ends at a number below some bound for which it makes as many tries as it has patience,
all of which fail. -/
def GivesUp (d : Draw σ α) (s : σ) (patience : Nat) : Prop :=
  ∃ i bound, 0 < bound ∧ d s = .error (.givenUp bound (skip i s)) ∧ Fails bound patience (skip i s)

/-- All who are patient enough end at one and the same number below some bound, of which no try ever
succeeds. -/
def Endless (d : Nat → Draw σ α) (s : σ) : Prop :=
  ∃ i bound, 0 < bound ∧ (∀ tries, Fails bound tries (skip i s)) ∧
    ∃ needed, ∀ patience, needed ≤ patience → d patience s = .error (.givenUp bound (skip i s))

/-- With a patience of at least `needed` the draw gives `r`, and with less the source is given
up. -/
def GivesFrom (d : Nat → Draw σ α) (s : σ) (needed : Nat) (r : α × σ) : Prop :=
  (∀ patience, needed ≤ patience → d patience s = .ok r) ∧
    ∀ patience, patience < needed → GivesUp (d patience) s patience

/-- The source is given up with every patience, for one number of which no try ever succeeds. -/
def NeverGives (d : Nat → Draw σ α) (s : σ) : Prop :=
  (∀ patience, GivesUp (d patience) s patience) ∧ Endless d s

section Bind

variable {s : σ} {patience : Nat}

/-- A run gives up if its first draw does. -/
theorem GivesUp.bind_left {d : Draw σ α} (h : GivesUp d s patience) (f : α → Draw σ β) :
    GivesUp (d >>= f) s patience := by
  obtain ⟨i, bound, hpos, hd, hfails⟩ := h
  exact ⟨i, bound, hpos, bind_of_error f hd, hfails⟩

/-- It gives up as well if its second draw does, behind a first one that gives a value. -/
theorem GivesUp.bind_right {d : Draw σ α} {f : α → Draw σ β} {x : α} {i : Nat}
    (hd : d s = .ok (x, skip i s)) (h : GivesUp (f x) (skip i s) patience) :
    GivesUp (d >>= f) s patience := by
  obtain ⟨j, bound, hpos, hf, hfails⟩ := h
  rw [skip_skip] at hf hfails
  exact ⟨i + j, bound, hpos, (bind_of_ok f hd).trans hf, hfails⟩

/-- A run is endless if its first draw is. -/
theorem Endless.bind_left {d : Nat → Draw σ α} (h : Endless d s) (f : Nat → α → Draw σ β) :
    Endless (fun patience => d patience >>= f patience) s := by
  obtain ⟨i, bound, hpos, hfails, needed, hd⟩ := h
  exact ⟨i, bound, hpos, hfails, needed, fun patience hpatience =>
    bind_of_error _ (hd patience hpatience)⟩

/-- It is endless as well if its second draw is, behind a first one that ends. -/
theorem Endless.bind_right {d : Nat → Draw σ α} {f : Nat → α → Draw σ β} {x : α} {i needed : Nat}
    (hd : ∀ patience, needed ≤ patience → d patience s = .ok (x, skip i s))
    (h : Endless (fun patience => f patience x) (skip i s)) :
    Endless (fun patience => d patience >>= f patience) s := by
  obtain ⟨j, bound, hpos, hfails, needed', hf⟩ := h
  rw [skip_skip] at hfails hf
  refine ⟨i + j, bound, hpos, hfails, max needed needed', fun patience hpatience => ?_⟩
  obtain ⟨hfirst, hsecond⟩ := Nat.max_le.mp hpatience
  exact (bind_of_ok _ (hd patience hfirst)).trans (hf patience hsecond)

end Bind

/-! ### Draws that yield -/

/-- Every source has a patience from which on the draw gives one value, which has the property, or
is given up with every patience. -/
def Yields (d : Nat → Draw σ α) (P : α → Prop) : Prop :=
  ∀ s, (∃ x, P x ∧ ∃ needed i, GivesFrom d s needed (x, skip i s)) ∨ NeverGives d s

namespace Yields

variable {d : Nat → Draw σ α} {P : α → Prop} {Q : β → Prop}

/-- A property of all values that are drawn may be weakened. -/
theorem mono {P' : α → Prop} (h : Yields d P) (hP : ∀ x, P x → P' x) : Yields d P' := fun s =>
  (h s).imp_left fun ⟨x, hx, hgives⟩ => ⟨x, hP x hx, hgives⟩

/-- A draw that takes words, and needs no patience for them. -/
theorem of_words {d : Draw σ α} (h : ∀ s, ∃ x i, P x ∧ d s = .ok (x, skip i s)) :
    Yields (fun _ => d) P := by
  intro s
  obtain ⟨x, i, hx, hd⟩ := h s
  exact .inl ⟨x, hx, 0, i, fun _ _ => hd, fun _ h => absurd h (Nat.not_lt_zero _)⟩

theorem pure {x : α} (hx : P x) : Yields (fun _ => (Pure.pure x : Draw σ α)) P :=
  of_words fun _ => ⟨x, 0, hx, rfl⟩

/-- What a draw makes of a value that yields needs the greater of two patiences. -/
theorem bind {f : Nat → α → Draw σ β} (hd : Yields d P)
    (hf : ∀ x, P x → Yields (fun patience => f patience x) Q) :
    Yields (fun patience => d patience >>= f patience) Q := by
  intro s
  rcases hd s with ⟨x, hx, needed, i, hgives, hless⟩ | ⟨hnever, hendless⟩
  · -- With less than `needed` the first draw gives up already, whatever the second one does.
    rcases hf x hx (skip i s) with ⟨y, hy, needed', j, hgives', hless'⟩ | ⟨hnever, hendless⟩
    · refine .inl ⟨y, hy, max needed needed', i + j, fun patience h => ?_, fun patience h => ?_⟩
      · obtain ⟨hfirst, hsecond⟩ := Nat.max_le.mp h
        rw [← skip_skip]
        exact (bind_of_ok _ (hgives patience hfirst)).trans (hgives' patience hsecond)
      · rcases Nat.lt_or_ge patience needed with hfirst | hfirst
        · exact (hless patience hfirst).bind_left _
        · exact .bind_right (hgives patience hfirst) (hless' patience (by omega))
    · refine .inr ⟨fun patience => ?_, hendless.bind_right hgives⟩
      rcases Nat.lt_or_ge patience needed with hfirst | hfirst
      · exact (hless patience hfirst).bind_left _
      · exact .bind_right (hgives patience hfirst) (hnever patience)
  · exact .inr ⟨fun patience => (hnever patience).bind_left _, hendless.bind_left f⟩

/-- Either branch of a choice that is made beforehand will do. -/
theorem ite {c : Prop} [Decidable c] {e : Nat → Draw σ α} (hd : Yields d P) (he : Yields e P) :
    Yields (fun patience => if c then d patience else e patience) P := by
  by_cases h : c
  · simpa only [if_pos h] using hd
  · simpa only [if_neg h] using he

/-- A row of draws yields as many values as there are draws. -/
theorem times (hd : Yields d P) (n : Nat) :
    Yields (fun patience => Draw.times (d patience) n)
      (fun xs => xs.length = n ∧ ∀ x ∈ xs, P x) := by
  induction n with
  | zero => exact pure ⟨rfl, fun x hx => absurd hx List.not_mem_nil⟩
  | succ n ih =>
    refine hd.bind fun x hx => ih.bind fun xs hxs => pure ?_
    exact ⟨congrArg Nat.succ hxs.1, List.forall_mem_cons.mpr ⟨hx, hxs.2⟩⟩

end Yields

/-! ### Numbers, choices, rolls -/

/-- A number below a bound is found at the first try that succeeds, if there is one. -/
theorem yields_below {bound : Nat} (hpos : 0 < bound) :
    Yields (σ := σ) (fun patience => below patience bound) (· < bound) := by
  intro s
  have hgivenUp {patience : Nat} (hfails : Fails bound patience s) :
      below patience bound s = .error (.givenUp bound (skip 0 s)) :=
    (below_eq _ hpos s).trans (belowFrom_of_fails s hfails)
  by_cases hfound : ∃ j, tryAt (bound.log2 + 1) s j < bound
  · have hbefore : ∀ i < Nat.find hfound, bound ≤ tryAt (bound.log2 + 1) s i :=
      fun i hi => Nat.not_lt.mp (Nat.find_min hfound hi)
    refine .inl ⟨_, Nat.find_spec hfound, Nat.find hfound + 1,
      (Nat.find hfound + 1) * width (bound.log2 + 1), fun patience hneeded => ?_,
      fun patience hless => ?_⟩
    · exact (below_eq _ hpos s).trans
        (belowFrom_of_first s hneeded (Nat.find_spec hfound) hbefore)
    · have hfails : Fails bound patience s := fun j hj => hbefore j (by omega)
      exact ⟨0, bound, hpos, hgivenUp hfails, hfails⟩
  · have hfails : ∀ tries, Fails bound tries s :=
      fun _ j _ => Nat.not_lt.mp fun hlt => hfound ⟨j, hlt⟩
    exact .inr ⟨fun patience => ⟨0, bound, hpos, hgivenUp (hfails patience), hfails patience⟩,
      0, bound, hpos, hfails, 0, fun patience _ => hgivenUp (hfails patience)⟩

/-- Between two bounds in order, all numbers drawn are within them. -/
theorem yields_between {low high : Int} (h : low ≤ high) :
    Yields (σ := σ) (fun patience => between patience low high)
      (fun n => low ≤ n ∧ n ≤ high) := by
  simp only [between, if_neg (Int.not_lt.mpr h)]
  refine (yields_below (by omega)).bind fun n hn => .pure ?_
  omega

/-- What is chosen among entries is one of them. -/
theorem yields_choice {entries : List α} (hne : entries ≠ []) :
    Yields (σ := σ) (fun patience => choice patience entries) (· ∈ entries) := by
  refine (yields_below (List.length_pos_iff.mpr hne)).bind fun n hn => ?_
  simp only [List.getElem?_eq_getElem hn]
  exact .pure (List.getElem_mem hn)

theorem yields_unit : Yields (σ := σ) (fun _ => unit) (fun _ => True) :=
  .of_words fun _ => ⟨_, 2, trivial, rfl⟩

end Draw

end Passcode
