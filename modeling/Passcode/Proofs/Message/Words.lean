import Passcode.Proofs.Message.Breaks
import Passcode.Proofs.Stability
import Passcode.Proofs.Text.Lowercase.Fixed
import Passcode.Proofs.Text.Words

/-!
# Words of a message — what its normal form says

The normal form of a message is its words, without marks of no width and with plain digits, with one
space between each and the next (`Text.canonical_eq_spaced`): squeezing and trimming leave the words
as they are, and a normal form is its words.  Under a limit it is the longest beginning of that text
that is not longer than the limit and does not end in a space (`Text.IsNormal.longest_cut`).

So bringing a message into normal form changes it unless it is in normal form and within the limit
(`Message.changed_ofText`).  Marks that are put in or taken out, digits of other scripts and other
blanks between the words leave the words as they are (`Text.words_of_redressed`), and no detector
tells messages of the same words from each other (`Detector.messages_read_by_words`).
-/

namespace Passcode

namespace Text

variable {s t : Text} {b c d : Char}

/-! ### The words of a normal form -/

/-- A stretch without blanks is squeezed as it is. -/
theorem squeezeFrom_solid_append (hs : ∀ c ∈ s, isBlank c = false) (t : Text) :
    squeezeFrom false (s ++ t) = s ++ squeezeFrom false t := by
  induction s with
  | nil => rfl
  | cons c cs ih =>
    obtain ⟨hc, hcs⟩ := List.forall_mem_cons.mp hs
    rw [List.cons_append, squeezeFrom, if_neg (by rw [hc]; exact Bool.false_ne_true), ih hcs,
      List.cons_append]

/-- Behind a blank a word is squeezed as it is elsewhere. -/
theorem squeezeFrom_of_solid (hne : s ≠ []) (hs : ∀ c ∈ s, isBlank c = false) (afterBlank : Bool)
    (t : Text) : squeezeFrom afterBlank (s ++ t) = s ++ squeezeFrom false t := by
  obtain ⟨c, cs, rfl⟩ := List.exists_cons_of_ne_nil hne
  obtain ⟨hc, hcs⟩ := List.forall_mem_cons.mp hs
  rw [List.cons_append, squeezeFrom, if_neg (by rw [hc]; exact Bool.false_ne_true),
    squeezeFrom_solid_append hcs, List.cons_append]

/-- Squeezing leaves the words as they are. -/
theorem words_squeezeFrom (afterBlank : Bool) (t : Text) :
    words (squeezeFrom afterBlank t) = words t := by
  have hspace : isBlank ' ' = true := by decide
  induction t using induction_on_words generalizing afterBlank with
  | nil => rfl
  | blank b t hb ih =>
    rw [squeezeFrom, if_pos hb, words_cons_blank hb]
    split
    · exact ih true
    · rw [words_cons_blank hspace, ih true]
  | last s hne hs =>
    have hsame : squeezeFrom afterBlank (s ++ []) = s ++ [] := squeezeFrom_of_solid hne hs _ []
    rw [List.append_nil] at hsame
    rw [hsame]
  | word s b t hne hs hb ih =>
    rw [squeezeFrom_of_solid hne hs, squeezeFrom, if_pos hb, if_neg Bool.false_ne_true,
      words_append_blank s hspace, words_append_blank s hb, ih true]

/-- Trimming leaves the words as they are. -/
theorem words_trim (t : Text) : words (trim t) = words t := by
  obtain ⟨blanks, hend, hblanks⟩ := exists_eq_trimEnd_append (trimStart t)
  have hstart : t.takeWhile isBlank ++ trimStart t = t := List.takeWhile_append_dropWhile
  calc words (trim t)
      = words (trimEnd (trimStart t) ++ blanks) := (words_append_blanks _ hblanks).symm
    _ = words (t.takeWhile isBlank ++ trimStart t) := by
        rw [← hend, words_blanks_append (List.all_eq_true.mp List.all_takeWhile)]
    _ = words t := by rw [hstart]

/-- What stands behind a blank in a normal form is a normal form, and not empty. -/
theorem IsNormal.behind_blank (h : IsNormal (s ++ b :: t)) (hb : isBlank b = true) :
    t ≠ [] ∧ IsNormal t := by
  have hsuffix : b :: t <:+ s ++ b :: t := List.suffix_append _ _
  have hrest : t <:+ s ++ b :: t := (List.suffix_cons b t).trans hsuffix
  obtain ⟨hnext, -⟩ := List.isChain_cons.mp (h.apart.suffix hsuffix)
  have hne : t ≠ [] := by
    rintro rfl
    have hlast := h.last b (by rw [List.getLast?_concat]; rfl)
    rw [hb] at hlast
    cases hlast
  exact ⟨hne, {
    visible := fun c hc => h.visible c (hrest.mem hc)
    folded := fun c hc => h.folded c (hrest.mem hc)
    plain := fun c hc => h.plain c (hrest.mem hc)
    apart := h.apart.suffix hrest
    first := fun c hc => hnext c hc hb
    last := fun c hc => h.last c (by
      rw [List.getLast?_append, List.getLast?_cons, Option.mem_def.mp hc]; rfl) }⟩

/-- **A normal form is its words** with one space between each and the next. -/
theorem IsNormal.spaced_words (h : IsNormal t) : spaced (words t) = t := by
  induction t using induction_on_words with
  | nil => rfl
  | blank b t hb =>
    have hfirst := h.first b rfl
    rw [hb] at hfirst
    cases hfirst
  | last s hne hs => rw [words_of_solid hne hs, spaced_singleton]
  | word s b t hne hs hb ih =>
    obtain ⟨ht, hnormal⟩ := h.behind_blank hb
    have hrest := ih hnormal
    have hwords : words t ≠ [] := by
      intro hnone
      rw [hnone] at hrest
      exact ht hrest.symm
    have hspace : b = ' ' := h.plain b (List.mem_append_right _ List.mem_cons_self) hb
    rw [words_append_blank s hb, words_of_solid hne hs, List.singleton_append,
      spaced_cons s hwords, hrest, hspace]

/-- **The normal form of a text is its words**, cleaned, with one space between each and the
next. -/
theorem canonical_eq_spaced (raw : Text) : canonical raw = spaced (words (cleaned raw)) := by
  have hwords : words (canonical raw) = words (cleaned raw) := by
    rw [canonical_eq_cleaned, words_trim, squeeze, words_squeezeFrom]
  rw [← hwords, (isNormal_canonical raw).spaced_words]

/-! ### The longest beginning within a limit -/

/-- `s` is the longest of the beginnings of `t` that have at most `n` characters and do not end in a
space. -/
structure IsLongest (n : Nat) (t s : Text) : Prop where
  isPrefix : s <+: t
  length_le : s.length ≤ n
  last : s.getLast? ≠ some ' '
  longest : ∀ q, q <+: t → q.length ≤ n → q.getLast? ≠ some ' ' → q <+: s

theorem suffix_trimStart (h : s <:+ t) (hhead : ∀ c ∈ s.head?, isBlank c = false) :
    s <:+ trimStart t := by
  obtain ⟨before, rfl⟩ := h
  rw [trimStart, List.dropWhile_append]
  split
  · exact ⟨[], (trimStart_eq hhead).symm⟩
  · exact List.suffix_append _ _

/-- Trimming the end leaves a beginning whole that does not end with a blank. -/
theorem prefix_trimEnd (h : s <+: t) (hlast : ∀ c ∈ s.getLast?, isBlank c = false) :
    s <+: trimEnd t := by
  have hback : s.reverse <:+ trimStart t.reverse :=
    suffix_trimStart (List.reverse_suffix.mpr h) (by rw [List.head?_reverse]; exact hlast)
  rw [← List.reverse_suffix, trimEnd, List.reverse_reverse]
  exact hback

/-- A cut leaves the longest beginning of a normal form. -/
theorem IsNormal.longest_cut (h : IsNormal t) (n : Nat) :
    IsLongest n t (Text.cut (boundAt (some n)) t) := by
  rw [cut_eq h.last]
  have htake : takeUpTo (some n) t = t.take n := rfl
  rw [htake]
  exact {
    isPrefix := (trimEnd_isPrefix _).trans (List.take_prefix n t)
    length_le := (trimEnd_isPrefix _).length_le.trans (List.length_take_le n t)
    last := fun hlast => absurd (getLast_trimEnd _ ' ' hlast) (by decide)
    longest := fun q hq hlength hlast => by
      refine prefix_trimEnd (List.prefix_take_iff.mpr ⟨hq, hlength⟩) fun c hc => ?_
      -- A blank at the end would be a space.
      refine Bool.eq_false_iff.mpr fun hblank => hlast ?_
      rw [← h.plain c (hq.mem (List.mem_of_getLast? hc)) hblank]
      exact hc }

/-! ### Texts of the same words -/

theorem foldDigit_of_isZeroWidth (h : isZeroWidth c = true) : foldDigit c = c := by
  simp only [isZeroWidth, Bool.or_eq_true, decide_eq_true_eq] at h
  rcases h with ((rfl | rfl) | rfl) | rfl <;> decide

theorem isZeroWidth_foldDigit_eq (c : Char) : isZeroWidth (foldDigit c) = isZeroWidth c := by
  cases h : isZeroWidth c with
  | true => rw [foldDigit_of_isZeroWidth h, h]
  | false => exact isZeroWidth_foldDigit h

/-- No blank is a digit that could be folded. -/
theorem foldDigit_of_isBlank (h : isBlank c = true) : foldDigit c = c := by
  have hranges : ∀ z ∈ foldedZeros, ∀ r ∈ blankRanges, r.2 < z ∨ z + 10 ≤ r.1 := by decide
  obtain ⟨r, hr, hlow, hhigh, -⟩ := exists_of_covers h
  unfold foldDigit
  split
  · rename_i z hz
    have hfold := List.find?_some hz
    simp only [Bool.and_eq_true, decide_eq_true_eq] at hfold hlow hhigh
    have hapart := hranges z (List.mem_of_find?_eq_some hz) r hr
    omega
  · rfl

theorem isZeroWidth_of_isBlank (h : isBlank c = true) : isZeroWidth c = false := by
  refine Bool.eq_false_iff.mpr fun hmark => ?_
  simp only [isZeroWidth, Bool.or_eq_true, decide_eq_true_eq] at hmark
  rcases hmark with ((rfl | rfl) | rfl) | rfl <;> exact absurd h (by decide)

/-- Texts are cleaned part by part. -/
theorem cleaned_append (s t : Text) : cleaned (s ++ t) = cleaned s ++ cleaned t := by
  rw [cleaned, List.filter_append, foldDigits, List.map_append]
  rfl

theorem cleaned_blanks (h : ∀ c ∈ s, isBlank c = true) : cleaned s = s := by
  have hvisible : s.filter (fun c => !isZeroWidth c) = s :=
    List.filter_eq_self.mpr fun c hc => by rw [isZeroWidth_of_isBlank (h c hc)]; rfl
  rw [cleaned, hvisible, foldDigits]
  exact (List.map_congr_left fun c hc => foldDigit_of_isBlank (h c hc)).trans (List.map_id s)

/-- Digits that stand for the same plain one are cleaned alike. -/
theorem cleaned_cons_congr (h : foldDigit c = foldDigit d) (t : Text) :
    cleaned (c :: t) = cleaned (d :: t) := by
  have hmarks : isZeroWidth c = isZeroWidth d := by
    rw [← isZeroWidth_foldDigit_eq c, h, isZeroWidth_foldDigit_eq]
  cases hc : isZeroWidth c with
  | true => rw [cleaned_cons_mark hc, cleaned_cons_mark (hmarks ▸ hc)]
  | false => rw [cleaned_cons hc, cleaned_cons (hmarks ▸ hc), h]

/-- One text becomes the other by a change that leaves its words as they are. -/
inductive Redressed : Text → Text → Prop
  /-- A mark of no width is put in. -/
  | mark (s t : Text) {c : Char} (h : isZeroWidth c = true) : Redressed (s ++ t) (s ++ c :: t)
  /-- A digit is written in another script. -/
  | digit (s t : Text) {c d : Char} (h : foldDigit c = foldDigit d) :
    Redressed (s ++ c :: t) (s ++ d :: t)
  /-- Blanks are written as other blanks. -/
  | blanks (s t : Text) {u v : Text} (hu : u ≠ []) (hv : v ≠ [])
    (hblank : ∀ c ∈ u, isBlank c = true) (hblank' : ∀ c ∈ v, isBlank c = true) :
    Redressed (s ++ u ++ t) (s ++ v ++ t)
  /-- Blanks are put at both ends. -/
  | ends (s : Text) {u v : Text} (hblank : ∀ c ∈ u, isBlank c = true)
    (hblank' : ∀ c ∈ v, isBlank c = true) : Redressed s (u ++ s ++ v)

/-- Another dress changes no word. -/
theorem words_of_redressed (h : Redressed s t) : words (cleaned t) = words (cleaned s) := by
  cases h with
  | mark s t hc => rw [cleaned_append, cleaned_append, cleaned_cons_mark hc]
  | digit s t hfold => rw [cleaned_append, cleaned_append, cleaned_cons_congr hfold]
  | blanks s t hu hv hblank hblank' =>
    simp only [cleaned_append, cleaned_blanks hblank, cleaned_blanks hblank']
    rw [words_append_blanks_append _ hu hblank, words_append_blanks_append _ hv hblank']
  | ends s hblank hblank' =>
    rw [cleaned_append, cleaned_append, cleaned_blanks hblank, cleaned_blanks hblank',
      words_append_blanks _ hblank', words_blanks_append hblank]

end Text

open Text

namespace Message

/-- Bringing a message into normal form leaves it as it is exactly if it is in normal form and
within the limit. -/
theorem changed_ofText (limit : Option Nat) (raw : Text) :
    (ofText (boundAt limit) raw).changed = false ↔
      IsNormal raw ∧ ∀ n ∈ limit, raw.length ≤ n := by
  have hchanged : (ofText (boundAt limit) raw).changed = false ↔
      (ofText (boundAt limit) raw).text = raw := bne_eq_false_iff_eq
  have hnormal := isNormal_canonical raw
  rw [hchanged]
  constructor
  · intro h
    rw [text_ofText] at h
    refine ⟨h ▸ hnormal.cut limit, fun n hn => ?_⟩
    cases hn
    rw [← h]
    exact (hnormal.longest_cut n).length_le
  · rintro ⟨h, hlimit⟩
    refine text_ofText_self h.canonical_eq fun n hn => ?_
    obtain ⟨m, hm, rfl⟩ := Option.map_eq_some_iff.mp hn
    exact Int.ofNat_le.mpr (hlimit m hm)

end Message

namespace Detector

/-- **A message is read word by word.**  Its normal form is its words, cleaned, with one space
between each and the next, and under a limit the longest beginning of that which does not end in a
space.  It is what the message was if that is in normal form and within the limit.  Messages of the
same words, as all are that differ in marks of no width, in the script of digits or in their
blanks, get the same verdict from every detector, and explanations that differ in no flag and no
candidate. -/
theorem messages_read_by_words (raw : Text) :
    (Message.ofText none raw).text = spaced (words (cleaned raw)) ∧
    (∀ n : Nat, IsLongest n (spaced (words (cleaned raw))) (Message.ofText (some n) raw).text) ∧
    (∀ limit : Option Nat, (Message.ofText (boundAt limit) raw).changed = false ↔
      IsNormal raw ∧ ∀ n ∈ limit, raw.length ≤ n) ∧
    (∀ raw', Redressed raw raw' → words (cleaned raw') = words (cleaned raw)) ∧
    ∀ raw', words (cleaned raw') = words (cleaned raw) → ∀ d : Detector,
      d.detect raw' = d.detect raw ∧
      d.explain raw' = (d.explain raw).map
        (fun l => l.map (Explanation.withChanged (d.messageOf raw').changed)) ∧
      (d.settings.WithinBounds → ∃ l l', d.explain raw = .ok l ∧ d.explain raw' = .ok l' ∧
        l.value.SameFindings l'.value) := by
  refine ⟨canonical_eq_spaced raw, fun n => ?_, fun limit => Message.changed_ofText limit raw,
    fun raw' => words_of_redressed, fun raw' hwords d => ?_⟩
  · rw [← canonical_eq_spaced]
    exact (isNormal_canonical raw).longest_cut n
  · have htext : (d.messageOf raw').text = (d.messageOf raw).text := by
      have hcanonical : canonical raw' = canonical raw := by
        rw [canonical_eq_spaced, canonical_eq_spaced, hwords]
      exact congrArg (Text.cut (some (d.settings.maxMessageLength : Int))) hcanonical
    have hexplain := explain_withChanged htext
    refine ⟨?_, hexplain, fun hd => explain_of_same_text hd htext⟩
    rw [detect, detect, hexplain]
    cases d.explain raw <;> rfl

/-- A message in another dress: blanks, a mark of no width within the code, digits of two
scripts. -/
def redressedCode : Text := "\t OTP\u2003\n is ١２\u200B3４٥6\uFEFF ".toList

theorem messages_read_by_words_redressed :
    words (cleaned redressedCode) = words (cleaned "OTP is 123456".toList) ∧
      plain.settings.WithinBounds ∧
      (Message.ofText none redressedCode).text = "OTP is 123456".toList ∧
      Redressed "OTP is 123456".toList "OTP is 123\u200B456".toList ∧
      words (cleaned "OTP is 123\u200B456".toList) = words (cleaned "OTP is 123456".toList) ∧
      plain.detect redressedCode = plain.detect "OTP is 123456".toList ∧
      ∃ l l', plain.explain "OTP is 123456".toList = .ok l ∧ plain.explain redressedCode = .ok l' ∧
        l.value.SameFindings l'.value := by
  have hwords : words (cleaned redressedCode) = words (cleaned "OTP is 123456".toList) := by
    decide +kernel
  have hmark : Redressed "OTP is 123456".toList "OTP is 123\u200B456".toList :=
    .mark "OTP is 123".toList "456".toList (by decide)
  obtain ⟨-, -, -, hredressed, hsame⟩ := messages_read_by_words "OTP is 123456".toList
  obtain ⟨hdetect, -, hexplain⟩ := hsame redressedCode hwords plain
  exact ⟨hwords, plain_withinBounds,
    (messages_read_by_words redressedCode).1.trans (by rw [hwords]; decide +kernel), hmark,
    hredressed _ hmark, hdetect, hexplain plain_withinBounds⟩

end Detector

end Passcode
