import Passcode.Proofs.Candidate.Shapes
import Passcode.Proofs.Contest
import Passcode.Proofs.Keyword.Nearest
import Passcode.Proofs.Text.Lowercase.Sigma
import Passcode.Proofs.Text.Occurrence

/-!
# Alignment — what is found in the lowercase copy is found in the text

Keywords and money indicators are looked for in the lowercase copy of a message, at indices that are
taken for indices of the text.  The copy has one character for each character of the text
(`Text.CopiedAs`), so a stretch of the copy is the copy of the stretch of the text between the same
indices (`Text.forall₂_slice`), and a word that stands in the copy is the copy of what stands in the
text there (`Message.ReadsAt`).

That is so of each keyword that a detector finds, of the keyword that each centre is the middle of,
and of each money indicator within the radius of a candidate (`Detector.found_in_text`).
-/

namespace Passcode

namespace Text

/-! ### The copy of a character -/

/-- What stands for the character `c` in the lowercase copy: its lowercase form if that is one
character, which for a capital sigma is either of the small ones, and `c` itself otherwise. -/
def CopiedAs (c x : Char) : Prop :=
  if c = capitalSigma then x = smallSigma ∨ x = finalSigma
  else if (lowerForm c).length = 1 then lowerForm c = [x]
  else x = c

theorem copiedAs_of_lowers {c x : Char} (h : Lowers c x) : CopiedAs c x := by
  unfold CopiedAs
  by_cases hsigma : c = capitalSigma
  · rw [if_pos hsigma]
    subst hsigma
    exact h.imp (fun hx => hx.trans lowerKept_capitalSigma) And.right
  rw [if_neg hsigma]
  have hx : x = lowerKept c := h.resolve_right fun hfinal => hsigma hfinal.1
  by_cases hdotted : c = dottedI
  · subst hdotted
    exact hx
  · rw [lowerForm_eq_kept hdotted, List.length_singleton, if_pos rfl, hx]

/-- **The lowercase copy has one character for each character of the text.** -/
theorem forall₂_copiedAs (t : Text) : List.Forall₂ CopiedAs t (lowerAligned t) :=
  (forall₂_lowerAligned t).imp fun _ _ => copiedAs_of_lowers

theorem exists_copiedAs {t : Text} {i : Nat} {c : Char} (hc : t[i]? = some c) :
    ∃ x, (lowerAligned t)[i]? = some x ∧ CopiedAs c x := by
  refine ⟨_, getElem?_lowerAligned hc, copiedAs_of_lowers ?_⟩
  split
  · rename_i hfinal
    exact .inr ⟨Option.some.inj (hc.symm.trans hfinal.2.1), rfl⟩
  · exact .inl rfl

/-! ### Stretches -/

theorem forall₂_slice {R : Char → Char → Prop} {s t : Text} (h : List.Forall₂ R s t) (a b : Int) :
    List.Forall₂ R (slice s a b) (slice t a b) := by
  rw [slice, slice, h.length_eq]
  exact List.forall₂_drop _ (List.forall₂_take _ h)

end Text

open Text

namespace Message

/-- The word stands in the lowercase copy at index `i`, and is the copy of what stands in the text
there. -/
structure ReadsAt (m : Message) (i : Nat) (word : Text) : Prop where
  within : i + word.length ≤ m.text.length
  lower : slice m.lower i ((i + word.length : Nat) : Int) = word
  text : List.Forall₂ CopiedAs (slice m.text i ((i + word.length : Nat) : Int)) word

theorem slice_eq_iff_prefix {t word : Text} {i : Nat} :
    slice t i ((i + word.length : Nat) : Int) = word ↔ word <+: t.drop i := by
  rw [slice_natCast, List.drop_take, Nat.add_sub_cancel_left, List.prefix_iff_eq_take, eq_comm]

variable {limit : Option Int} {raw word : Text} {i : Nat}

/-- A word that stands in the lowercase copy is the copy of what stands in the text there. -/
theorem readsAt_iff (hne : word ≠ []) :
    (ofText limit raw).ReadsAt i word ↔ word <+: (ofText limit raw).lower.drop i := by
  have hcopy : List.Forall₂ CopiedAs (ofText limit raw).text (ofText limit raw).lower :=
    forall₂_copiedAs _
  rw [← slice_eq_iff_prefix]
  constructor
  · exact ReadsAt.lower
  · intro h
    have hlength : 0 < word.length := List.length_pos_iff.mpr hne
    have hslice := congrArg List.length h
    rw [slice_natCast, List.length_drop, List.length_take, ← hcopy.length_eq] at hslice
    refine ⟨by omega, h, ?_⟩
    have hstretch := forall₂_slice hcopy i ((i + word.length : Nat) : Int)
    rwa [h] at hstretch

/-- The middle of a word that stands in the copy lies within what stands in the text there. -/
theorem exists_readsAt_of_centre {keywords : List Text} {x : Nat}
    (h : x ∈ keywordCentres (ofText limit raw).lower keywords) :
    ∃ k ∈ keywords, ∃ i, (ofText limit raw).ReadsAt i k ∧ x = i + k.length / 2 ∧
      x < i + k.length := by
  obtain ⟨k, hk, hne, hcentre⟩ := mem_keywordCentres.mp h
  obtain ⟨i, hi, rfl⟩ := List.mem_map.mp hcentre
  have hprefix := ((selects_selectFrom hne).stands i hi).2
  have hlength : 0 < k.length := List.length_pos_iff.mpr hne
  exact ⟨k, hk, i, (readsAt_iff hne).mpr hprefix, rfl, by omega⟩

/-- An indicator is near an index exactly if one is read wholly within the radius. -/
theorem indicatorNear_iff_readsAt {indicators : List Text} {index radius : Int} :
    indicatorNear (ofText limit raw).lower indicators index radius = true ↔
      ∃ w ∈ indicators, w ≠ [] ∧ ∃ i : Nat, (ofText limit raw).ReadsAt i w ∧
        index - radius ≤ i ∧ i + w.length ≤ index + radius := by
  rw [indicatorNear_iff]
  refine exists_congr fun w => and_congr_right fun _ => and_congr_right fun hne => ?_
  refine exists_congr fun i => ?_
  rw [← readsAt_iff hne]
  have hlength : (ofText limit raw).lower.length = (ofText limit raw).text.length :=
    length_lowerAligned _
  constructor
  · rintro ⟨hfirst, hstop, hread⟩
    exact ⟨hread, by omega, by omega⟩
  · rintro ⟨hread, hfirst, hstop⟩
    have hwithin := hread.within
    exact ⟨by omega, by omega, hread⟩

end Message

/-- A penalty is given exactly if there is a reason for it. -/
theorem Signal.given_eq_iff {reason : Bool} {points : Score} (h : points ≠ .zero) :
    given reason points = points ↔ reason = true := by
  cases reason
  · exact iff_of_false (fun hzero => h hzero.symm) Bool.false_ne_true
  · exact iff_of_true rfl rfl

namespace Detector

/-- **What is found in the lowercase copy is found in the text.**  The copy of any text has one
character for each of its characters.  In every explanation a word that stands in the copy is the
copy of what stands in the text there; each keyword centre is the middle of such a word; each
candidate starts within the text, and loses points for money exactly if a money indicator is read
from the text within the radius of that start. -/
theorem found_in_text (d : Detector) (hd : d.settings.WithinBounds) (raw : Text) :
    (∀ t : Text, (lowerAligned t).length = t.length ∧
      ∀ (i : Nat) (c : Char), t[i]? = some c → ∃ x, (lowerAligned t)[i]? = some x ∧ CopiedAs c x) ∧
    ∃ l, d.explain raw = .ok l ∧
      l.value.message = d.messageOf raw ∧
      (∀ (word : Text) (i : Nat), word ≠ [] → word <+: l.value.message.lower.drop i →
        l.value.message.ReadsAt i word) ∧
      (∀ x ∈ keywordCentres l.value.message.lower d.otp.items, ∃ k ∈ d.otp.items, ∃ i,
        l.value.message.ReadsAt i k ∧ x = i + k.length / 2 ∧ x < i + k.length) ∧
      ∀ s ∈ l.value.candidates,
        0 ≤ s.candidate.first ∧ s.candidate.first < l.value.message.text.length ∧
        (s.breakdown.money = ⟨-4⟩ ↔
          ∃ w ∈ d.money.items, w ≠ [] ∧ ∃ i : Nat, l.value.message.ReadsAt i w ∧
            s.candidate.first - d.settings.moneyRadius ≤ i ∧
              i + w.length ≤ s.candidate.first + d.settings.moneyRadius) := by
  refine ⟨fun t => ⟨length_lowerAligned t, fun i c hc => exists_copiedAs hc⟩, ?_⟩
  obtain ⟨l, hexplain, hmessage, hcandidates, -⟩ := exists_explanation hd raw
  refine ⟨l, hexplain, ?_⟩
  rw [hmessage, hcandidates]
  refine ⟨rfl, fun word i hne h => (Message.readsAt_iff hne).mpr h,
    fun x hx => Message.exists_readsAt_of_centre hx, fun s hs => ?_⟩
  rw [scoresOf_onLine] at hs
  obtain ⟨c, hc, rfl⟩ := List.mem_map.mp hs
  have hfound := foundIn_of_mem_candidatesOf hc
  obtain ⟨hfirst, hspan⟩ := hfound.first_le_last
  have hlast : c.last < (d.messageOf raw).text.length := length_maskNoise _ ▸ hfound.last_lt_length
  refine ⟨hfirst, Int.lt_of_le_of_lt hspan hlast, ?_⟩
  exact (Signal.given_eq_iff (by decide)).trans Message.indicatorNear_iff_readsAt

/-- A detector with one OTP keyword and one money indicator. -/
def priced : Detector :=
  .of .default (.given { otp := ["otp".toList], safety := [], money := ["rs".toList], parcel := [] }
    (fun _ => none))

/-- A letter with a longer lowercase form, a money indicator, a keyword and a code. -/
def dottedPrice : Text := "İ RS 500 OTP 482911".toList

theorem found_in_text_dotted :
    priced.settings.WithinBounds ∧
      ∃ l, priced.explain dottedPrice = .ok l ∧ l.value.message.ReadsAt 2 "rs".toList ∧
        l.value.message.ReadsAt 9 "otp".toList ∧
        ∃ s ∈ l.value.candidates, s.candidate.code = "482911".toList ∧
          s.breakdown.money = ⟨-4⟩ := by
  have hd : priced.settings.WithinBounds := Settings.withinBounds_default
  obtain ⟨-, l, hexplain, hmessage, hword, -, hmoney⟩ := found_in_text priced hd dottedPrice
  have hrs : l.value.message.ReadsAt 2 "rs".toList :=
    hword _ 2 (by decide) (by rw [hmessage]; decide +kernel)
  have hotp : l.value.message.ReadsAt 9 "otp".toList :=
    hword _ 9 (by decide) (by rw [hmessage]; decide +kernel)
  have hcandidates : l.value.candidates = priced.scoresOf dottedPrice := by
    obtain ⟨l', hexplain', -, h, -⟩ := exists_explanation (d := priced) hd dottedPrice
    cases hexplain.symm.trans hexplain'
    exact h
  obtain ⟨s, hs, hcode, hfirst⟩ : ∃ s ∈ l.value.candidates,
      s.candidate.code = "482911".toList ∧ s.candidate.first = 13 := by
    rw [hcandidates]
    decide +kernel
  refine ⟨hd, l, hexplain, hrs, hotp, s, hs, hcode, ?_⟩
  have hnear : (13 : Int) - (25 : Nat) ≤ (2 : Nat) ∧
      ((2 : Nat) : Int) + ("rs".toList).length ≤ 13 + (25 : Nat) := by decide
  exact (hmoney s hs).2.2.mpr ⟨"rs".toList, by decide +kernel, by decide, 2, hrs,
    by rw [hfirst]; exact hnear.1, by rw [hfirst]; exact hnear.2⟩

end Detector

end Passcode
