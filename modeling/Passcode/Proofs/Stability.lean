import Passcode.Proofs.Explanation
import Passcode.Proofs.Message.Limit

/-!
# Stability — a message that is in normal form already

Everything that is found in a message is read off its normal form (`explain_withChanged`): two
messages with one normal form get explanations that differ at most in whether bringing the message
into normal form changed it (`Explanation.SameFindings`), and the same entries in the journal.

The normal form of a normal form under a limit that is no tighter than that of the detector is the
normal form which the detector reads anyway, so the detector does not notice that a message was
brought into normal form before (`explain_normal_form`).
-/

namespace Passcode

open Text Message

/-- Two explanations agree in all but whether bringing the message into normal form changed it. -/
structure Explanation.SameFindings (e e' : Explanation) : Prop where
  verdict : e'.verdict = e.verdict
  text : e'.message.text = e.message.text
  lower : e'.message.lower = e.message.lower
  flags : e'.flags = e.flags
  candidates : e'.candidates = e.candidates

/-- The explanation with another word on whether the message was changed. -/
def Explanation.withChanged (changed : Bool) (e : Explanation) : Explanation :=
  { e with message := { e.message with changed } }

theorem Explanation.sameFindings_withChanged (changed : Bool) (e : Explanation) :
    e.SameFindings (e.withChanged changed) := ⟨rfl, rfl, rfl, rfl, rfl⟩

namespace Detector

variable {d : Detector} {raw raw' : Text}

theorem messageOf_of_same_text (h : (d.messageOf raw').text = (d.messageOf raw).text) :
    d.messageOf raw' = { d.messageOf raw with changed := (d.messageOf raw').changed } := by
  have hlower : (d.messageOf raw').lower = (d.messageOf raw).lower := by
    rw [messageOf, messageOf, lower_ofText, lower_ofText]
    exact congrArg lowerAligned h
  rw [Message.mk.injEq]
  exact ⟨h, hlower, rfl⟩

/-- **One normal form, one way to the explanation**, whether or not it leads to one. -/
theorem explain_withChanged (h : (d.messageOf raw').text = (d.messageOf raw).text) :
    d.explain raw' = (d.explain raw).map
      (fun l => l.map (Explanation.withChanged (d.messageOf raw').changed)) := by
  have hm := messageOf_of_same_text h
  unfold explain
  dsimp only
  rw [← messageOf, ← messageOf, hm]
  generalize (d.messageOf raw').changed = changed
  generalize d.messageOf raw = m
  have hempty : Message.isEmpty { m with changed } = m.isEmpty := rfl
  have hflags : d.flagsOf { m with changed } = d.flagsOf m := rfl
  rw [hempty, hflags]
  -- At each of the three ends the message is put into the explanation and not asked for again.
  by_cases he : m.isEmpty = true
  · rw [if_pos he, if_pos he]
    unfold explainEmpty
    cases Verdict.make false none .zero (d.message .emptyMessage) false <;> rfl
  rw [if_neg he, if_neg he]
  dsimp only
  cases candidatesOf m.text with
  | nil =>
    dsimp only
    unfold explainNone
    cases Verdict.make false none lowConfidence (d.message (occasionOf (d.flagsOf m))) false <;> rfl
  | cons c cs =>
    have hscored : d.scoredOf { m with changed } (d.flagsOf m) (c :: cs) =
        d.scoredOf m (d.flagsOf m) (c :: cs) := rfl
    dsimp only
    rw [hscored]
    generalize d.scoredOf m (d.flagsOf m) (c :: cs) = scored
    unfold explainScored
    cases winner? scored with
    | none => rfl
    | some w =>
      dsimp only
      cases d.settings.calibration.calibrate (d.flagsOf m) w.score.toBinary64 with
      | error fault => rfl
      | ok calibration =>
        dsimp only
        cases Verdict.make calibration.isOtp
          (if calibration.isOtp || (d.flagsOf m).isParcel then some w.candidate.code else none)
          calibration.confidence (reason w (d.flagsOf m) calibration.confidence)
          (d.flagsOf m).isParcel <;> rfl

/-- **One normal form, one explanation.** -/
theorem explain_of_same_text (hd : d.settings.WithinBounds)
    (h : (d.messageOf raw').text = (d.messageOf raw).text) :
    ∃ l l', d.explain raw = .ok l ∧ d.explain raw' = .ok l' ∧
      l.value.SameFindings l'.value := by
  obtain ⟨l, hexplain, -⟩ := exists_explanation hd raw
  have hexplain' := explain_withChanged h
  rw [hexplain] at hexplain'
  exact ⟨l, _, hexplain, hexplain', Explanation.sameFindings_withChanged _ l.value⟩

/-- The detector reads the same in a normal form as in the message itself, if the limit of the
normal form is no tighter than its own. -/
theorem messageOf_normal_form {limit : Option Nat}
    (h : ∀ n ∈ limit, d.settings.maxMessageLength ≤ n) :
    (d.messageOf (ofText (boundAt limit) raw).text).text = (d.messageOf raw).text := by
  have htighter : tighter (some d.settings.maxMessageLength) limit =
      some d.settings.maxMessageLength := by
    cases limit with
    | none => rfl
    | some n => exact congrArg some (Nat.min_eq_left (h n rfl))
  exact (text_ofText_text (some d.settings.maxMessageLength) limit raw).trans
    (by rw [htighter]; rfl)

/-- **Stability**: the normal form, under one limit, of a normal form under another is the normal
form under the tighter of the two, so bringing a message into normal form twice is doing it once.
A detector therefore finds the same in a message and in its normal form under any limit that is no
tighter than its own: the same verdict, normal form, flags, and candidates with their scores. -/
theorem explain_normal_form (d : Detector) (hd : d.settings.WithinBounds) (raw : Text)
    (limit : Option Nat) (hlimit : ∀ n ∈ limit, d.settings.maxMessageLength ≤ n) :
    (∀ m n : Option Nat,
      (ofText (boundAt m) (ofText (boundAt n) raw).text).text =
        (ofText (boundAt (tighter m n)) raw).text) ∧
    (∀ n : Option Nat,
      (ofText (boundAt n) (ofText (boundAt n) raw).text).text = (ofText (boundAt n) raw).text) ∧
    ∃ l l', d.explain raw = .ok l ∧ d.explain (ofText (boundAt limit) raw).text = .ok l' ∧
      l.value.SameFindings l'.value := by
  refine ⟨fun m n => text_ofText_text m n raw, fun n => ?_, ?_⟩
  · rw [text_ofText_text, tighter_self]
  · exact explain_of_same_text hd (messageOf_normal_form hlimit)

/-- The plain detector that reads no more than the first twelve characters of a message. -/
def brief : Detector :=
  { plain with settings := { Settings.default with maxMessageLength := 12 } }

theorem brief_withinBounds : brief.settings.WithinBounds :=
  ⟨by decide, by decide, plain_withinBounds.calibration⟩

/-- A message whose normal form is cut right behind a space. -/
def spreadCode : Text := "\u200B OTP\n\n is 1234\t5678".toList

theorem canonical_spreadCode : canonical spreadCode = "OTP is 1234 5678".toList := by decide +kernel

theorem explain_normal_form_cut :
    brief.settings.WithinBounds ∧ brief.settings.maxMessageLength ≤ 14 ∧
      (ofText (boundAt (some 14)) spreadCode).text = "OTP is 1234 56".toList ∧
        ∃ l l', brief.explain spreadCode = .ok l ∧
          brief.explain (ofText (boundAt (some 14)) spreadCode).text = .ok l' ∧
            l.value.SameFindings l'.value := by
  have htext : (ofText (boundAt (some 14)) spreadCode).text = "OTP is 1234 56".toList := by
    rw [text_ofText, canonical_spreadCode]
    decide +kernel
  have hlimit : ∀ n ∈ some 14, brief.settings.maxMessageLength ≤ n := by decide
  obtain ⟨-, -, hsame⟩ :=
    explain_normal_form brief brief_withinBounds spreadCode (some 14) hlimit
  exact ⟨brief_withinBounds, by decide, htext, hsame⟩

end Detector

end Passcode
