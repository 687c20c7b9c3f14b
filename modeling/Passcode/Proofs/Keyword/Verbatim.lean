import Passcode.Proofs.Explanation
import Passcode.Proofs.Keyword.List
import Passcode.Proofs.Text.Lowercase.Aligned
import Passcode.Proofs.Text.Occurrence

/-!
# Verbatim — a keyword that stands in a message as it was given

A detector lowercases its keywords whole, and messages index for index.  So a keyword that stands
in a message as it was given, its padding apart, sets the flag of its list if it has no dotted
capital I and is read alike in the message (`verbatim_keyword_flagged`); without capital sigmas it
always is.

Both conditions are needed (`verbatim_keywords_overlooked`): the dotted capital I is kept in the
copy of a message, and a sigma may be final in a keyword and plain in the message, or the other way
round.
-/

namespace Passcode

open Text

/-! ### Finding a keyword -/

theorem KeywordList.form_ne_nil {k : Text} (h : trim k ≠ []) : KeywordList.form k ≠ [] := by
  have hpos : 0 < (trim k).length := List.length_pos_of_ne_nil h
  have hlength : (KeywordList.form k).length = (trim k).length + (trim k).count dottedI :=
    length_lowerFrom false (trim k)
  exact List.ne_nil_of_length_pos (by omega)

/-- What contains the form of a keyword contains an entry of the keyword list, which may be brought
into form once more. -/
theorem containsAny_of_form {keywords : List Text} {k lower : Text} (hk : k ∈ keywords)
    (hne : trim k ≠ []) (h : KeywordList.form k <:+: lower) :
    containsAny lower (KeywordList.of (KeywordList.of keywords).items).items = true := by
  rw [KeywordList.of_items]
  have hentry : KeywordList.form k ∈ (KeywordList.of keywords).items :=
    KeywordList.mem_of.mpr ⟨KeywordList.form_ne_nil hne, k, hk, rfl⟩
  exact containsAny_iff.mpr ⟨KeywordList.form k, hentry, KeywordList.form_ne_nil hne, h⟩

namespace Detector

/-- **A keyword given verbatim sets the flag of its list**, whatever stands around it, if it has no
dotted capital I and its capital sigmas are read alike in the message.  Sigmas that have a cased
character behind them or an uncased one before them within the keyword are read alike wherever it
stands. -/
theorem verbatim_keyword_flagged {s : Settings} (hs : s.WithinBounds) (lists : KeywordLists)
    (messages : GivenMessages) (raw : Text) :
    ∃ l, (Detector.of s (.given lists messages)).explain raw = .ok l ∧
      l.value.message = Message.ofText (some s.maxMessageLength) raw ∧
      ∀ k, trim k ≠ [] → dottedI ∉ trim k →
        ReadAlike (trim k) l.value.message.text ∨
            plainSigmas (trim k) = true ∧ trim k <:+: l.value.message.text →
          ∃ f, l.value.flags = some f ∧
            (k ∈ lists.otp → f.otp = true) ∧
            (k ∈ lists.safety → f.safety = true) ∧
            (k ∈ lists.parcel → f.isParcel = true) := by
  set d := Detector.of s (.given lists messages)
  obtain ⟨l, hexplain, hmessage, -⟩ := exists_explanation (d := d) hs raw
  refine ⟨l, hexplain, hmessage, fun k hne hdotted hstands => ?_⟩
  have hread : ReadAlike (trim k) (d.messageOf raw).text := by
    rw [hmessage] at hstands
    rcases hstands with hread | ⟨hplain, hwithin⟩
    · exact hread
    · exact readAlike_of_plainSigmas hdotted hplain hwithin
  have hform : KeywordList.form k <:+: (d.messageOf raw).lower :=
    lower_infix_of_readAlike hdotted hread
  have htext : (d.messageOf raw).text ≠ [] := by
    obtain ⟨before, behind, heq, -⟩ := hread
    rw [heq]
    simp [hne]
  refine ⟨_, flags_of_explain hs hexplain htext, ?_, ?_, ?_⟩
  · exact fun hk => containsAny_of_form hk hne hform
  · exact fun hk => containsAny_of_form hk hne hform
  · exact fun hk => Bool.or_eq_true_iff.mpr (.inl (containsAny_of_form hk hne hform))

/-- Four lists with OTP keywords only. -/
def otpLists (keywords : List Text) : KeywordLists :=
  { otp := keywords, safety := [], money := [], parcel := [] }

/-- A detector with the default settings that has OTP keywords only. -/
def keyedTo (keywords : List Text) : Detector :=
  .of .default (.given (otpLists keywords) (fun _ => none))

/-- A keyword with a capital sigma before a cased letter, and padded. -/
def paddedWord : Text := " ΣΥΝΘΗΜΑ\t".toList

/-- The keyword, in a message with a letter whose lowercase form is longer. -/
def dottedMessage : Text := "ΤΟ ΣΥΝΘΗΜΑ İ: 482911".toList

theorem verbatim_keyword_dotted :
    Settings.default.WithinBounds ∧ trim paddedWord ≠ [] ∧ dottedI ∉ trim paddedWord ∧
      plainSigmas (trim paddedWord) = true ∧
        trim paddedWord <:+: (Message.ofText (some 4096) dottedMessage).text ∧
          ∃ l f, (keyedTo [paddedWord]).explain dottedMessage = .ok l ∧
            l.value.flags = some f ∧ f.otp = true := by
  have hne : trim paddedWord ≠ [] := by decide
  have hdotted : dottedI ∉ trim paddedWord := by decide
  have hplain : plainSigmas (trim paddedWord) = true := by decide +kernel
  have hwithin : trim paddedWord <:+: (Message.ofText (some 4096) dottedMessage).text := by
    decide +kernel
  obtain ⟨l, hexplain, hmessage, hflags⟩ := verbatim_keyword_flagged
    Settings.withinBounds_default (otpLists [paddedWord]) (fun _ => none) dottedMessage
  obtain ⟨f, hf, hotp, -⟩ := hflags paddedWord hne hdotted (.inr ⟨hplain, hmessage ▸ hwithin⟩)
  exact ⟨Settings.withinBounds_default, hne, hdotted, hplain, hwithin, l, f, hexplain, hf,
    hotp (List.mem_singleton_self _)⟩

/-! ### Keywords that are overlooked -/

/-- A keyword that is not empty stands in the message as it was given, and yet does not set the flag
of its list. -/
def Overlooks (keyword raw : Text) : Prop :=
  trim keyword ≠ [] ∧
    ∃ l f, (keyedTo [keyword]).explain raw = .ok l ∧ trim keyword <:+: l.value.message.text ∧
      l.value.flags = some f ∧ f.otp = false

theorem overlooks_of {keyword raw : Text} (hne : trim keyword ≠ [])
    (hwithin : trim keyword <:+: ((keyedTo [keyword]).messageOf raw).text)
    (hflag : ((keyedTo [keyword]).flagsOf ((keyedTo [keyword]).messageOf raw)).otp = false) :
    Overlooks keyword raw := by
  obtain ⟨l, hexplain, hmessage, -⟩ :=
    exists_explanation (d := keyedTo [keyword]) Settings.withinBounds_default raw
  have htext : ((keyedTo [keyword]).messageOf raw).text ≠ [] := fun h =>
    hne (List.eq_nil_of_infix_nil (h ▸ hwithin))
  exact ⟨hne, l, _, hexplain, hmessage ▸ hwithin,
    flags_of_explain Settings.withinBounds_default hexplain htext, hflag⟩

/-- The dotted capital I, a keyword that ends in a sigma in a message lowercased character by
character, and a keyword that is a sigma in a message where that ends a word. -/
theorem verbatim_keywords_overlooked :
    Overlooks "İ".toList "İ".toList ∧
      Overlooks "ΚΩΔΙΚΟΣ".toList "ΚΩΔΙΚΟΣ İ".toList ∧
        Overlooks "Σ".toList "ΑΣ".toList :=
  ⟨overlooks_of (by decide) (by decide +kernel) (by decide +kernel),
    overlooks_of (by decide) (by decide +kernel) (by decide +kernel),
    overlooks_of (by decide) (by decide +kernel) (by decide +kernel)⟩

end Detector

end Passcode
