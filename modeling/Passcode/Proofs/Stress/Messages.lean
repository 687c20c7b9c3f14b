import Passcode.Proofs.Document.Printer
import Passcode.Proofs.Stress.Patience

/-!
# Messages — as many as asked for, whatever the words of the source

Each way of drawing a fragment yields a piece (`yields_drawFragment`), a text that is not empty and
whose characters can be drawn, which no half of a pair can (`IsDrawable`).  So a message is a piece,
and of many messages the first ones are those that are drawn where fewer are asked for.

`messages_counted`: with bounds of at least one, every source gives as many messages as asked for to
all who are patient enough, unless one of the numbers that are drawn for them is never found.
-/

namespace Passcode

/-- Every bound is at least one. -/
structure StressOptions.AtLeastOne (o : StressOptions) : Prop where
  maxFragments : 1 ≤ o.maxFragments
  maxDigitRun : 1 ≤ o.maxDigitRun
  randomCodePoints : 1 ≤ o.randomCodePoints
  maxRepeat : 1 ≤ o.maxRepeat

namespace StressMessage

open Draw

/-! ### Pieces -/

/-- A tab, a line feed, or a character from the space up to U+2FFFF that is no half of a pair.  A
number that is no character would show as the character 0, which cannot be drawn either. -/
def IsDrawable (c : Char) : Prop :=
  c = '\t' ∨ c = '\n' ∨
    0x20 ≤ c.toNat ∧ c.toNat ≤ 0x2FFFF ∧ ¬ (0xD800 ≤ c.toNat ∧ c.toNat ≤ 0xDFFF)

instance (c : Char) : Decidable (IsDrawable c) := inferInstanceAs (Decidable (_ ∨ _))

/-- All characters of the text can be drawn. -/
def AllDrawable (t : Text) : Prop := ∀ c ∈ t, IsDrawable c

instance (t : Text) : Decidable (AllDrawable t) := List.decidableBAll _ t

/-- The text is not empty, and all its characters can be drawn. -/
def IsPiece (t : Text) : Prop := t ≠ [] ∧ AllDrawable t

instance (t : Text) : Decidable (IsPiece t) := inferInstanceAs (Decidable (_ ∧ _))

/-- A text of drawable characters is a piece if its length is at least one. -/
theorem isPiece_of_length {t : Text} {n : Int} (hn : 1 ≤ n) (hlength : t.length = n.toNat)
    (hall : AllDrawable t) : IsPiece t :=
  ⟨List.ne_nil_of_length_pos (by omega), hall⟩

theorem allDrawable_append {s t : Text} (hs : AllDrawable s) (ht : AllDrawable t) :
    AllDrawable (s ++ t) :=
  List.forall_mem_append.mpr ⟨hs, ht⟩

theorem isPiece_fixedFragments : ∀ t ∈ fixedFragments, IsPiece t := by decide +kernel

theorem allDrawable_plainDigits : AllDrawable plainDigits := by decide +kernel

theorem allDrawable_repeatable : AllDrawable repeatable := by decide +kernel

theorem allDrawable_separators : ∀ t ∈ separators, AllDrawable t := by decide +kernel

/-- The character of a number is that of the same code point, save that it is a space for the
halves of pairs. -/
theorem toNat_charOf {n : Int} (hlow : 0x20 ≤ n) (hhigh : n ≤ 0x2FFFF) :
    ((charOf n).toNat : Int) = if 0xD800 ≤ n ∧ n ≤ 0xDFFF then 0x20 else n := by
  by_cases hhalf : 0xD800 ≤ n ∧ n ≤ 0xDFFF
  · simp [charOf, hhalf]
  · have hvalid : n.toNat.isValidChar := by
      unfold Nat.isValidChar
      omega
    have hsame : (Char.ofNat n.toNat).toNat = n.toNat := by
      rw [Char.ofNat, dif_pos hvalid]
      rfl
    simp only [charOf, Bool.and_eq_true, decide_eq_true_eq, if_neg hhalf, hsame]
    omega

/-- The numbers that are drawn for characters are those of drawable ones. -/
theorem isDrawable_charOf {n : Int} (hlow : 0x20 ≤ n) (hhigh : n ≤ 0x2FFFF) :
    IsDrawable (charOf n) := by
  have hnumber := toNat_charOf hlow hhigh
  refine .inr (.inr ?_)
  split at hnumber <;> omega

theorem allDrawable_digitsOf (n : Nat) : AllDrawable (Binary64.digitsOf n) := by
  intro c hc
  have hdigit := Nat.isDigit_of_mem_toDigits (by decide) (by decide) hc
  simp only [Char.isDigit, Bool.and_eq_true, decide_eq_true_eq, ge_iff_le, UInt32.le_iff_toNat_le]
    at hdigit
  obtain ⟨hlow, hhigh⟩ : 48 ≤ c.toNat ∧ c.toNat ≤ 57 := hdigit
  exact .inr (.inr ⟨by omega, by omega, by omega⟩)

/-- A template that is filled with drawable characters is a piece. -/
theorem isPiece_fill {t : Template} (ht : t ∈ templates) {code : Text}
    (hcode : AllDrawable code) : IsPiece (t.fill code) := by
  have hframe : ∀ t ∈ templates, (t.before.toList ++ t.after.toList ≠ []) ∧
      AllDrawable t.before.toList ∧ AllDrawable t.after.toList := by
    decide +kernel
  obtain ⟨hne, hbefore, hafter⟩ := hframe t ht
  refine ⟨fun h => hne ?_, allDrawable_append (allDrawable_append hbefore hcode) hafter⟩
  obtain ⟨hfront, hnil⟩ := List.append_eq_nil_iff.mp h
  rw [hnil, (List.append_eq_nil_iff.mp hfront).1]
  rfl

/-- Pieces that are joined are a piece. -/
theorem isPiece_joinWith {separator : Text} (hseparator : AllDrawable separator) {ts : List Text}
    (hne : ts ≠ []) (hts : ∀ t ∈ ts, IsPiece t) : IsPiece (joinWith separator ts) := by
  fun_induction joinWith separator ts with
  | case1 => exact absurd rfl hne
  | case2 t => exact hts t (List.mem_singleton_self t)
  | case3 t ts hsome ih =>
    obtain ⟨ht, hrest⟩ := List.forall_mem_cons.mp hts
    have hjoined := ih hsome hrest
    refine ⟨fun h => ht.1 ?_, allDrawable_append (allDrawable_append ht.2 hseparator) hjoined.2⟩
    exact (List.append_eq_nil_iff.mp (List.append_eq_nil_iff.mp h).1).1

/-! ### Draws of pieces -/

variable {σ : Type} [WordSource σ] {o : StressOptions}

/-- Every code that is drawn is a piece. -/
theorem yields_drawDigits (ho : o.AtLeastOne) :
    Yields (σ := σ) (fun patience => drawDigits patience o) IsPiece := by
  refine (yields_between ho.maxDigitRun).bind fun n hn => ?_
  refine ((yields_choice (List.cons_ne_nil _ _)).times n.toNat).mono fun t ht => ?_
  exact isPiece_of_length hn.1 ht.1 fun c hc => allDrawable_plainDigits c (ht.2 c hc)

theorem yields_drawRepeat (ho : o.AtLeastOne) :
    Yields (σ := σ) (fun patience => drawRepeat patience o) IsPiece := by
  refine (yields_choice (List.cons_ne_nil _ _)).bind fun c hc => ?_
  refine (yields_between ho.maxRepeat).bind fun n hn => .pure ?_
  refine isPiece_of_length hn.1 List.length_replicate fun d hd => ?_
  rw [List.eq_of_mem_replicate hd]
  exact allDrawable_repeatable c hc

/-- Every text that is drawn from all characters is a piece. -/
theorem yields_drawCodePoints (ho : o.AtLeastOne) :
    Yields (σ := σ) (fun patience => drawCodePoints patience o) IsPiece := by
  refine (yields_between ho.randomCodePoints).bind fun n hn => ?_
  refine ((yields_between (by decide)).times n.toNat).bind fun ns hns => .pure ?_
  refine isPiece_of_length hn.1 ((List.length_map _).trans hns.1) fun c hc => ?_
  obtain ⟨k, hk, rfl⟩ := List.mem_map.mp hc
  exact isDrawable_charOf (hns.2 k hk).1 (hns.2 k hk).2

/-- Every announcement that is drawn is a piece. -/
theorem yields_drawTemplate :
    Yields (σ := σ) (fun patience => drawTemplate patience) IsPiece := by
  refine (yields_between (by decide)).bind fun code _ => ?_
  refine (yields_choice (List.cons_ne_nil _ _)).bind fun t ht => .pure ?_
  exact isPiece_fill ht (allDrawable_digitsOf _)

/-- Whichever way the roll goes, a fragment is a piece. -/
theorem yields_drawFragment (ho : o.AtLeastOne) :
    Yields (σ := σ) (fun patience => drawFragment patience o) IsPiece := by
  refine yields_unit.bind fun roll _ => ?_
  refine .ite ?_ (.ite (yields_drawDigits ho) (.ite (yields_drawRepeat ho)
    (.ite (yields_drawCodePoints ho) yields_drawTemplate)))
  exact (yields_choice (List.cons_ne_nil _ _)).mono isPiece_fixedFragments

/-- Whatever kind of message is drawn, it is a piece. -/
theorem yields_draw (ho : o.AtLeastOne) :
    Yields (σ := σ) (fun patience => draw patience o) IsPiece := by
  refine (yields_between ho.maxFragments).bind fun n hn => ?_
  refine ((yields_drawFragment ho).times n.toNat).bind fun fragments hfragments => ?_
  refine (yields_choice (List.cons_ne_nil _ _)).bind fun separator hseparator => .pure ?_
  have hne : fragments ≠ [] := List.ne_nil_of_length_pos (by have := hn.1; omega)
  exact isPiece_joinWith (allDrawable_separators separator hseparator) hne hfragments.2

/-- Of many messages that are drawn, each is a piece, and they are as many as were asked for. -/
theorem yields_drawMany (ho : o.AtLeastOne) (n : Nat) :
    Yields (σ := σ) (fun patience => drawMany patience o n)
      (fun ts => ts.length = n ∧ ∀ t ∈ ts, IsPiece t) :=
  (yields_draw ho).times n

/-! ### Counted messages -/

section Counted

variable {patience n : Nat} {s : σ}

/-- Messages that are drawn within the patience are given. -/
theorem ofSource_eq_ok {s' : σ} {ts : List Text} (h : drawMany patience o n s = .ok (ts, s')) :
    ofSource patience s n o = .ok ts := by
  rw [ofSource, valueFrom, h]

/-- A run that gives up gives no messages but its fault. -/
theorem ofSource_eq_error (h : GivesUp (drawMany patience o n) s patience) :
    ofSource patience s n o = .error .sourceGivenUp := by
  obtain ⟨i, bound, -, hgiven, -⟩ := h
  rw [ofSource, valueFrom, hgiven]
  rfl

end Counted

/-- The messages of a source: so many pieces, of which the first are the messages of a smaller
count, to all who are patient enough, unless some number is never found. -/
theorem ofSource_cases (ho : o.AtLeastOne) {m n : Nat} (hmn : m ≤ n) (s : σ) :
    (∃ ts, (ts.length = n ∧ ∀ t ∈ ts, IsPiece t) ∧ ∃ needed,
      (∀ patience, needed ≤ patience →
        ofSource patience s n o = .ok ts ∧ ofSource patience s m o = .ok (ts.take m)) ∧
      ∀ patience, patience < needed → ofSource patience s n o = .error .sourceGivenUp ∧
        GivesUp (drawMany patience o n) s patience) ∨
      (∀ patience, ofSource patience s n o = .error .sourceGivenUp ∧
        GivesUp (drawMany patience o n) s patience) ∧
      Endless (fun patience => drawMany patience o n) s := by
  rcases yields_drawMany ho n s with ⟨ts, hts, needed, i, hgives, hless⟩ | ⟨hnever, hendless⟩
  · refine .inl ⟨ts, hts, needed, fun patience hneeded => ?_, fun patience hlt => ?_⟩
    · have hmany : drawMany patience o n s = .ok (ts, _) := hgives patience hneeded
      obtain ⟨s', htake⟩ := times_take (draw patience o) hmn hmany
      exact ⟨ofSource_eq_ok hmany, ofSource_eq_ok htake⟩
    · exact ⟨ofSource_eq_error (hless patience hlt), hless patience hlt⟩
  · exact .inr ⟨fun patience => ⟨ofSource_eq_error (hnever patience), hnever patience⟩, hendless⟩

/-- **As many messages as asked for.**  Let every bound be at least one.  Whatever words a source
has, it gives one and the same `n` messages to all who are patient enough, and is given up by the
others, who make as many tries for one number of the messages as they have patience; or there is one
number of the messages of which no try ever succeeds.  None of the messages is empty, all their
characters can be drawn, so none is the half of a pair, and the first `m` of them are the messages
of the smaller count.

The messages of a seed are those of its generator with the usual patience: there are `n` of them,
unless so many tries for one of their numbers fail in a row.  A random code point goes out as it is
drawn, and as a space if it is the half of a pair. -/
theorem messages_counted (ho : o.AtLeastOne) {m n : Nat} (hmn : m ≤ n) :
    (∀ s : σ,
      (∃ ts, (ts.length = n ∧ ∀ t ∈ ts, t ≠ [] ∧ ∀ c ∈ t, IsDrawable c) ∧ ∃ needed,
        (∀ patience, needed ≤ patience →
          ofSource patience s n o = .ok ts ∧ ofSource patience s m o = .ok (ts.take m)) ∧
        ∀ patience, patience < needed → ofSource patience s n o = .error .sourceGivenUp ∧
          GivesUp (drawMany patience o n) s patience) ∨
        (∀ patience, ofSource patience s n o = .error .sourceGivenUp ∧
          GivesUp (drawMany patience o n) s patience) ∧
        Endless (fun patience => drawMany patience o n) s) ∧
      (∀ seed,
        (∃ ts, (ts.length = n ∧ ∀ t ∈ ts, t ≠ [] ∧ ∀ c ∈ t, IsDrawable c) ∧
          ofSeed seed n o = .ok ts ∧ ofSeed seed m o = .ok (ts.take m)) ∨
          ofSeed seed n o = .error .sourceGivenUp ∧
            GivesUp (drawMany usualPatience o n) (Twister.ofSeed seed) usualPatience) ∧
      ∀ k : Int, 0x20 ≤ k → k ≤ 0x2FFFF →
        ((charOf k).toNat : Int) = if 0xD800 ≤ k ∧ k ≤ 0xDFFF then 0x20 else k := by
  refine ⟨ofSource_cases ho hmn, fun seed => ?_, fun k => toNat_charOf⟩
  rcases ofSource_cases ho hmn (Twister.ofSeed seed) with
    ⟨ts, hts, needed, hgives, hless⟩ | ⟨hnever, -⟩
  · rcases Nat.lt_or_ge usualPatience needed with hlt | henough
    · exact .inr (hless usualPatience hlt)
    · exact .inl ⟨ts, hts, hgives usualPatience henough⟩
  · exact .inr (hnever usualPatience)

/-- A source that gives the words of a list, and then nothing but zeros. -/
structure Tape where
  words : List UInt32

instance : WordSource Tape := ⟨fun t => (t.words.headD 0, ⟨t.words.tail⟩)⟩

/-- The words of two messages: one of a row of code points, with half of a pair among the numbers,
and a run of digits, and one of a template.  Two draws reject their first word. -/
def twoMessages : Tape :=
  { words :=
      [0xF0000000, 0x10000000, 0xC0000000, 0, 0x08000000, 0x35F80000, 0x3FF80000, 0x60000000, 0,
       0x04000000, 0x40000000, 0x20000000, 0xF0000000, 0x70000000, 0x40000000, 0, 0xF0000000, 0,
       0x00EBBFA0, 0x60000000] }

/-- The texts of the two messages. -/
def twoTexts : List Text := [" 𐀀 427".toList, "Login code: 482913".toList]

/-- With a patience of one the source is given up, and with more it gives the two texts. -/
theorem messages_counted_two :
    StressOptions.AtLeastOne {} ∧ 1 ≤ 2 ∧
      (∀ patience, 2 ≤ patience → ofSource patience twoMessages 2 {} = .ok twoTexts ∧
        ofSource patience twoMessages 1 {} = .ok (twoTexts.take 1)) ∧
      ofSource 1 twoMessages 2 {} = .error .sourceGivenUp ∧
        GivesUp (drawMany 1 {} 2) twoMessages 1 := by
  have hbounds : StressOptions.AtLeastOne {} :=
    ⟨by decide, by decide, by decide, by decide⟩
  have htwo : (ofSource 2 twoMessages 2 {}).toOption = some twoTexts := by decide +kernel
  have hone : (ofSource 1 twoMessages 2 {}).toOption = none := by decide +kernel
  obtain ⟨hcases, -⟩ := messages_counted (σ := Tape) hbounds (m := 1) (n := 2) (by decide)
  rcases hcases twoMessages with ⟨ts, -, needed, hgives, hless⟩ | ⟨hnever, -⟩
  · have hlow : 1 < needed := Nat.not_le.mp fun h => by
      rw [(hgives 1 h).1] at hone
      cases hone
    have hhigh : needed ≤ 2 := Nat.not_lt.mp fun h => by
      rw [(hless 2 h).1] at htwo
      cases htwo
    rw [(hgives 2 hhigh).1] at htwo
    cases htwo
    exact ⟨hbounds, by decide, fun patience h => hgives patience (Nat.le_trans hhigh h),
      hless 1 hlow⟩
  · rw [(hnever 2).1] at htwo
    cases htwo

end StressMessage

end Passcode
