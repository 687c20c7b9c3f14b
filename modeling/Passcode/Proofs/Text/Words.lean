import Passcode.Text.Blank

/-!
# Words — what is left of a text when its blanks are not looked at

The words of a text are its maximal stretches without blanks: what stands between its blanks, where
that is not empty (`words`).  A blank parts the words before it from those behind it
(`words_append_blank`), so a text is read word by word: it starts with a blank, or with a word that
a blank parts from the rest, or it is one word (`induction_on_words`).
-/

namespace Passcode.Text

/-- The words of a text, from left to right: its maximal stretches without blanks. -/
def words (t : Text) : List Text := (t.splitOnP isBlank).filter (fun w => !w.isEmpty)

/-- The words with one space between each and the next. -/
def spaced (ws : List Text) : Text := [' '].intercalate ws

theorem spaced_singleton (w : Text) : spaced [w] = w := List.append_nil w

theorem spaced_cons (w : Text) {ws : List Text} (hne : ws ≠ []) :
    spaced (w :: ws) = w ++ ' ' :: spaced ws := by
  cases ws with
  | nil => exact absurd rfl hne
  | cons v vs => rfl

variable {s t : Text} {b : Char}

/-- Words do not reach over a blank. -/
theorem words_append_blank (s : Text) (hb : isBlank b = true) (t : Text) :
    words (s ++ b :: t) = words s ++ words t := by
  rw [words, List.splitOnP_append_cons s t hb, List.filter_append]
  rfl

theorem words_cons_blank (hb : isBlank b = true) (t : Text) : words (b :: t) = words t :=
  words_append_blank [] hb t

theorem words_blanks_append (hs : ∀ c ∈ s, isBlank c = true) (t : Text) :
    words (s ++ t) = words t := by
  induction s with
  | nil => rfl
  | cons c cs ih =>
    obtain ⟨hc, hcs⟩ := List.forall_mem_cons.mp hs
    rw [List.cons_append, words_cons_blank hc, ih hcs]

/-- Which blanks stand between two texts, and how many, does not matter to their words. -/
theorem words_append_blanks_append (s : Text) {blanks : Text} (hne : blanks ≠ [])
    (hblanks : ∀ c ∈ blanks, isBlank c = true) (t : Text) :
    words (s ++ blanks ++ t) = words s ++ words t := by
  obtain ⟨b, bs, rfl⟩ := List.exists_cons_of_ne_nil hne
  obtain ⟨hb, hbs⟩ := List.forall_mem_cons.mp hblanks
  rw [List.append_assoc, List.cons_append, words_append_blank s hb, words_blanks_append hbs]

theorem words_append_blanks (s : Text) (ht : ∀ c ∈ t, isBlank c = true) :
    words (s ++ t) = words s := by
  cases t with
  | nil => rw [List.append_nil]
  | cons b bs =>
    have hwords := words_append_blanks_append s (List.cons_ne_nil b bs) ht []
    rwa [List.append_nil, show words [] = [] from rfl, List.append_nil] at hwords

/-- A text without blanks is one word. -/
theorem words_of_solid (hne : s ≠ []) (hs : ∀ c ∈ s, isBlank c = false) : words s = [s] := by
  rw [words, List.splitOnP_eq_singleton hs]
  exact List.filter_eq_self.mpr fun w hw => by
    rw [List.mem_singleton.mp hw, List.isEmpty_eq_false_iff.mpr hne]
    rfl

/-- **Induction on the words of a text**: it starts with a blank, or is one word, or starts with a
word and the blank that parts it from the rest. -/
theorem induction_on_words {P : Text → Prop} (nil : P [])
    (blank : ∀ b t, isBlank b = true → P t → P (b :: t))
    (last : ∀ s, s ≠ [] → (∀ c ∈ s, isBlank c = false) → P s)
    (word : ∀ s b t, s ≠ [] → (∀ c ∈ s, isBlank c = false) → isBlank b = true → P t →
      P (s ++ b :: t))
    (t : Text) : P t := by
  induction hn : t.length using Nat.strongRecOn generalizing t with
  | _ n ih =>
    subst hn
    cases t with
    | nil => exact nil
    | cons c cs =>
      cases hc : isBlank c with
      | true => exact blank c cs hc (ih _ (Nat.lt_succ_self _) cs rfl)
      | false =>
        have hsplit : (c :: cs).takeWhile (fun d => !isBlank d) ++
            (c :: cs).dropWhile (fun d => !isBlank d) = c :: cs := List.takeWhile_append_dropWhile
        have hsolid : ∀ d ∈ (c :: cs).takeWhile (fun d => !isBlank d), isBlank d = false :=
          fun d hd => by simpa using List.all_eq_true.mp List.all_takeWhile d hd
        have hne : (c :: cs).takeWhile (fun d => !isBlank d) ≠ [] := by
          rw [List.takeWhile_cons_of_pos (by rw [hc]; rfl)]
          exact List.cons_ne_nil _ _
        have hnext := List.head?_dropWhile_not (fun d => !isBlank d) (c :: cs)
        rw [← hsplit]
        cases hrest : (c :: cs).dropWhile (fun d => !isBlank d) with
        | nil =>
          rw [List.append_nil]
          exact last _ hne hsolid
        | cons b u =>
          rw [hrest] at hsplit hnext
          have hshort : u.length < (c :: cs).length := by
            rw [← hsplit, List.length_append, List.length_cons]
            omega
          exact word _ b u hne hsolid (by simpa using hnext) (ih _ hshort u rfl)

end Passcode.Text
