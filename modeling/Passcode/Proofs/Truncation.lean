import Passcode.Proofs.Candidate.Cut
import Passcode.Proofs.Candidate.Spans
import Passcode.Proofs.Explanation
import Passcode.Proofs.Message.Limit

/-!
# Truncation — the codes of a message that is cut at its length limit

A detector reads the normal form of a message up to the length limit.  The cut may go through a
word, and what is left of a run of digits, of a token or of a group may be a code that the whole
message does not have (`codes_of_cut_words`).

A candidate is *settled* if enough words end between it and the cut (`Candidate.Settled`): its own
word for a run of digits, the next one too for a token, and two words behind the separator for a
group.  What is settled is no different without the cut: the code of a settled candidate is that of
a candidate of the whole message (`code_of_settled`), and so is a code that is reported
(`reported_code_uncut`).
-/

namespace Passcode

open Text

/-! ### Settled candidates -/

/-- How far behind the last character of a candidate the words begin that settle it. -/
def Source.settledFrom : Source → Int
  | .numeric => 1
  | .alnum => 1
  | .grouped => 2

/-- How many words settle a candidate. -/
def Source.settledBy : Source → Nat
  | .numeric => 1
  | .alnum => 2
  | .grouped => 2

/-- The number of spaces from index `first` to index `last`, both included. -/
def Text.spacesWithin (t : Text) (first last : Int) : Nat := (slice t first (last + 1)).count ' '

/-- Enough words of `full` end behind the candidate, up to the index at which `full` is cut. -/
def Candidate.Settled (full : Text) (cut : Nat) (c : Candidate) : Prop :=
  c.source.settledBy ≤ full.spacesWithin (c.last + c.source.settledFrom) cut

instance (full : Text) (cut : Nat) (c : Candidate) : Decidable (c.Settled full cut) :=
  inferInstanceAs (Decidable (_ ≤ _))

theorem exists_space {t : Text} {a k : Nat} (h : k + 1 ≤ (t.drop a).count ' ') :
    ∃ b, a ≤ b ∧ t[b]? = some ' ' ∧ k ≤ (t.drop (b + 1)).count ' ' := by
  generalize hrest : t.drop a = rest at h
  induction rest generalizing a with
  | nil => exact absurd h (Nat.not_succ_le_zero k)
  | cons c cs ih =>
    have hget : t[a]? = some c := by
      rw [← Nat.add_zero a, ← List.getElem?_drop, hrest]; rfl
    have hnext : t.drop (a + 1) = cs := by
      rw [← List.drop_drop, hrest]; rfl
    by_cases hc : c = ' '
    · refine ⟨a, Nat.le_refl a, hc ▸ hget, ?_⟩
      rw [hc, List.count_cons_self] at h
      rw [hnext]
      omega
    · rw [List.count_cons_of_ne hc] at h
      obtain ⟨b, hb, hspace, hcount⟩ := ih hnext h
      exact ⟨b, by omega, hspace, hcount⟩

/-- The first space that is counted, with what is left to count. -/
theorem exists_space_within {full : Text} {first : Int} {cut k : Nat} (hfirst : 0 ≤ first)
    (h : k + 1 ≤ full.spacesWithin first cut) :
    ∃ b : Nat, first ≤ b ∧ b ≤ cut ∧ full[b]? = some ' ' ∧
      k ≤ full.spacesWithin (b + 1 : Nat) cut := by
  obtain ⟨a, rfl⟩ := Int.eq_ofNat_of_zero_le hfirst
  have hslice : ∀ a : Nat, full.spacesWithin a cut = ((full.take (cut + 1)).drop a).count ' ' :=
    fun a => congrArg (List.count ' ') (slice_natCast full a (cut + 1))
  rw [hslice] at h
  obtain ⟨b, hab, hspace, hcount⟩ := exists_space h
  have hb := (List.getElem?_eq_some_iff.mp hspace).1
  rw [List.length_take] at hb
  rw [List.getElem?_take_of_lt (by omega)] at hspace
  exact ⟨b, Int.ofNat_le.mpr hab, by omega, hspace, by rw [hslice]; exact hcount⟩

theorem exists_two_spaces_within {full : Text} {first : Int} {cut : Nat} (hfirst : 0 ≤ first)
    (h : 2 ≤ full.spacesWithin first cut) :
    ∃ m n : Nat, first ≤ m ∧ m < n ∧ n ≤ cut ∧ full[m]? = some ' ' ∧ full[n]? = some ' ' := by
  obtain ⟨m, hm, -, hspace, hmore⟩ := exists_space_within hfirst h
  obtain ⟨n, hn, hcut, hspace', -⟩ := exists_space_within (by omega) hmore
  exact ⟨m, n, hm, by omega, hcut, hspace, hspace'⟩

/-! ### A text and its beginning -/

section Beginning

variable {s t : Text} (h : s <+: t)

include h

theorem getElem?_of_isPrefix {i : Nat} (hi : i < s.length) : s[i]? = t[i]? := by
  obtain ⟨rest, rfl⟩ := h
  exact (List.getElem?_append_left hi).symm

/-- A text and its beginning agree up to each space of the text by the end of the beginning. -/
theorem agreeTo_of_isPrefix {b : Nat} (hb : b ≤ s.length) (hspace : t[b]? = some ' ') :
    AgreeTo b s t := by
  refine ⟨?_, ?_, ?_⟩
  · obtain ⟨rest, rfl⟩ := h
    exact (List.take_append_of_le_length hb).symm
  · rw [startsApart_drop_iff]
    intro c hc
    rw [getElem?_of_isPrefix h (List.getElem?_eq_some_iff.mp hc).1, hspace] at hc
    exact (Option.some.inj hc).symm
  · rw [startsApart_drop_iff, hspace]
    exact fun c hc => (Option.some.inj hc).symm

/-- **What is settled does not depend on the cut.** -/
theorem code_of_settled {c : Candidate} (hc : c ∈ candidatesOf s)
    (hsettled : c.Settled t s.length) : ∃ c' ∈ candidatesOf t, c'.code = c.code := by
  obtain ⟨hnonneg, hle⟩ := (foundIn_of_mem_candidatesOf hc).first_le_last
  have hlast : 0 ≤ c.last := by omega
  cases hsource : c.source with
  | numeric =>
    simp only [Candidate.Settled, hsource, Source.settledBy, Source.settledFrom] at hsettled
    obtain ⟨n, hn, hcut, hspace, -⟩ := exists_space_within (by omega) hsettled
    exact ⟨c, mem_candidatesOf_of_numeric (agreeTo_of_isPrefix h hcut hspace) hc hsource
      (by omega), rfl⟩
  | alnum =>
    simp only [Candidate.Settled, hsource, Source.settledBy, Source.settledFrom] at hsettled
    obtain ⟨m, n, hm, hmn, hcut, hspace, hspace'⟩ :=
      exists_two_spaces_within (by omega) hsettled
    rw [← getElem?_of_isPrefix h (by omega)] at hspace
    exact ⟨c, mem_candidatesOf_of_alnum (agreeTo_of_isPrefix h hcut hspace') hmn hspace hc hsource
      (by omega), rfl⟩
  | grouped =>
    simp only [Candidate.Settled, hsource, Source.settledBy, Source.settledFrom] at hsettled
    obtain ⟨m, n, hm, hmn, hcut, hspace, hspace'⟩ :=
      exists_two_spaces_within (by omega) hsettled
    rw [← getElem?_of_isPrefix h (by omega)] at hspace
    exact exists_code_of_grouped (agreeTo_of_isPrefix h hcut hspace') hmn hspace hc hsource
      (by omega)

end Beginning

/-! ### Reported codes -/

namespace Detector

/-- What a detector reads is a beginning of the whole normal form. -/
theorem text_messageOf_isPrefix (d : Detector) (raw : Text) :
    (d.messageOf raw).text <+: (Message.ofText none raw).text := by
  have htext : (d.messageOf raw).text =
      cut (boundAt (some d.settings.maxMessageLength)) (canonical raw) := rfl
  rw [htext, cut_eq (isNormal_canonical raw).last]
  exact (trimEnd_isPrefix _).trans (takeUpTo_isPrefix _ _)

/-- A normal form within the length limit is not cut. -/
theorem text_messageOf_of_le {d : Detector} {raw : Text}
    (h : (Message.ofText none raw).text.length ≤ d.settings.maxMessageLength) :
    (d.messageOf raw).text = (Message.ofText none raw).text :=
  if_neg (by rw [Int.ofNat_lt]; exact Nat.not_lt.mpr h)

/-- **A code that is reported is a code of the whole message, if it is settled.**  The code that a
detector reports is that of the winner.  Where the whole normal form is within the length limit, or
enough words end between the winner and the cut, it is the code of a candidate of the whole normal
form too. -/
theorem reported_code_uncut (d : Detector) (hd : d.settings.WithinBounds) (raw : Text) :
    ∃ l, d.explain raw = .ok l ∧ ∀ code, l.value.verdict.code = some code →
      ∃ w, winner? l.value.candidates = some w ∧ w.candidate.code = code ∧
        ((Message.ofText none raw).text.length ≤ d.settings.maxMessageLength ∨
            w.candidate.Settled (Message.ofText none raw).text l.value.message.text.length →
          ∃ c ∈ candidatesOf (Message.ofText none raw).text, c.code = code) := by
  obtain ⟨l, hexplain, hmessage, hcandidates, hcode⟩ := exists_explanation hd raw
  refine ⟨l, hexplain, fun code h => ?_⟩
  obtain ⟨w, hw, rfl⟩ := hcode code h
  have hmem : w.candidate ∈ candidatesOf (d.messageOf raw).text := by
    rw [← scoresOf_candidates]
    exact List.mem_map_of_mem (winner?_max hw).1
  refine ⟨w, hcandidates ▸ hw, rfl, fun hor => ?_⟩
  rw [hmessage] at hor
  rcases hor with hshort | hsettled
  · exact ⟨w.candidate, text_messageOf_of_le hshort ▸ hmem, rfl⟩
  · exact code_of_settled (text_messageOf_isPrefix d raw) hmem hsettled

/-! ### Messages that are cut -/

/-- The plain detector with another length limit. -/
def upTo (n : Nat) : Detector :=
  { plain with settings := { Settings.default with maxMessageLength := n } }

theorem upTo_withinBounds {n : Nat} (h : 1 ≤ n) : (upTo n).settings.WithinBounds :=
  ⟨plain_withinBounds.schemaVersion, h, plain_withinBounds.calibration⟩

/-- A message that is cut behind the code and a space. -/
def cutBehindCode : Text := "OTP is 123456 and stays".toList

theorem reported_code_cutBehindCode :
    (upTo 16).settings.WithinBounds ∧
      ∃ l w, (upTo 16).explain cutBehindCode = .ok l ∧
        l.value.verdict.code = some "123456".toList ∧ winner? l.value.candidates = some w ∧
          l.value.message.text ≠ (Message.ofText none cutBehindCode).text ∧
            w.candidate.Settled (Message.ofText none cutBehindCode).text
              l.value.message.text.length ∧
              ∃ c ∈ candidatesOf (Message.ofText none cutBehindCode).text,
                c.code = "123456".toList := by
  have hd := upTo_withinBounds (n := 16) (by decide)
  have hcode : ((upTo 16).explain cutBehindCode).toOption.bind (fun l => l.value.verdict.code) =
      some "123456".toList := by decide +kernel
  have hsettled : ∀ w ∈ winner? ((upTo 16).scoresOf cutBehindCode),
      w.candidate.Settled (Message.ofText none cutBehindCode).text
        ((upTo 16).messageOf cutBehindCode).text.length := by decide +kernel
  have hcut : ((upTo 16).messageOf cutBehindCode).text ≠
      (Message.ofText none cutBehindCode).text := by decide +kernel
  obtain ⟨l, hexplain, hreported⟩ := reported_code_uncut (upTo 16) hd cutBehindCode
  obtain ⟨l', hexplain', hmessage, hcandidates, -⟩ := exists_explanation hd cutBehindCode
  rw [hexplain] at hcode hexplain'
  cases hexplain'
  obtain ⟨w, hw, -, hwhole⟩ := hreported _ hcode
  rw [← hmessage, ← hcandidates] at hsettled
  rw [← hmessage] at hcut
  exact ⟨hd, l, w, hexplain, hcode, hw, hcut, hsettled w hw, hwhole (.inr (hsettled w hw))⟩

/-- A detector with settings within bounds reports a code that no candidate of the whole message
has, though the winner lacks one word only to be settled. -/
def ReportsCutWord (d : Detector) (raw code : Text) : Prop :=
  d.settings.WithinBounds ∧ ∃ l w, d.explain raw = .ok l ∧ l.value.verdict.code = some code ∧
    winner? l.value.candidates = some w ∧ w.candidate.code = code ∧
      (Message.ofText none raw).text.spacesWithin
          (w.candidate.last + w.candidate.source.settledFrom) l.value.message.text.length + 1 =
        w.candidate.source.settledBy ∧
      ∀ c ∈ candidatesOf (Message.ofText none raw).text, c.code ≠ code

theorem reportsCutWord_of {n : Nat} (hn : 1 ≤ n) {raw code : Text}
    (hcode : ((upTo n).explain raw).toOption.bind (fun l => l.value.verdict.code) = some code)
    (hwinner : ∀ w ∈ winner? ((upTo n).scoresOf raw),
      (Message.ofText none raw).text.spacesWithin
          (w.candidate.last + w.candidate.source.settledFrom)
          ((upTo n).messageOf raw).text.length + 1 = w.candidate.source.settledBy)
    (hwhole : ∀ c ∈ candidatesOf (Message.ofText none raw).text, c.code ≠ code) :
    (upTo n).ReportsCutWord raw code := by
  obtain ⟨l, hexplain, hmessage, hcandidates, hreported⟩ :=
    exists_explanation (upTo_withinBounds hn) raw
  rw [hexplain] at hcode
  obtain ⟨w, hw, rfl⟩ := hreported code hcode
  exact ⟨upTo_withinBounds hn, l, w, hexplain, hcode, hcandidates ▸ hw, rfl,
    hmessage ▸ hwinner w hw, hwhole⟩

/-- A cut through a run of digits, a cut through the phrase behind a token, and a cut through the
phrase behind the third chunk of a group each leave a code that the whole message does not have. -/
theorem codes_of_cut_words :
    (upTo 13).ReportsCutWord "OTP is 12345678".toList "123456".toList ∧
      (upTo 19).ReportsCutWord "OTP is 4a5bshare otp".toList "4a5bshare".toList ∧
        (upTo 23).ReportsCutWord "OTP is 12 34 56share otp".toList "1234".toList :=
  ⟨reportsCutWord_of (by decide) (by decide +kernel) (by decide +kernel) (by decide +kernel),
    reportsCutWord_of (by decide) (by decide +kernel) (by decide +kernel) (by decide +kernel),
    reportsCutWord_of (by decide) (by decide +kernel) (by decide +kernel) (by decide +kernel)⟩

end Detector

end Passcode
