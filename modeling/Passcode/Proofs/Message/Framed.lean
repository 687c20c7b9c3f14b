import Passcode.Proofs.Contest
import Passcode.Proofs.Message.Limit
import Passcode.Proofs.Noise.Quiet

/-!
# Framed — a code between two texts, in normal form

Which digits stand between two texts, and how many, decides nothing about their normal form: if the
texts are their own normal form with one digit between them, so they are with a code between them
(`canonical_around`).
-/

namespace Passcode

namespace Text

section Around

variable {before code after : Text} (hcode : ∀ c ∈ code, isAsciiDigit c = true) (hne : code ≠ [])

include hcode

/-- What holds of two texts, and of each digit, holds of the texts with digits between them. -/
theorem forall_mem_around {P : Char → Prop} (h : ∀ c ∈ before ++ ['0'] ++ after, P c)
    (hdigit : ∀ c, isAsciiDigit c = true → P c) : ∀ c ∈ before ++ code ++ after, P c := by
  intro c hc
  rcases List.mem_append.mp hc with hc | hc
  · rcases List.mem_append.mp hc with hc | hc
    · exact h c (List.mem_append_left _ (List.mem_append_left _ hc))
    · exact hdigit c (hcode c hc)
  · exact h c (List.mem_append_right _ hc)

include hne

/-- A normal form with one digit between two texts is one with any digits between them. -/
theorem IsNormal.around (h : IsNormal (before ++ ['0'] ++ after)) :
    IsNormal (before ++ code ++ after) where
  visible := forall_mem_around hcode h.visible
    fun _ => of_digit (P := fun c => isZeroWidth c = false) fun k hk => (plain_digit k hk).2
  folded := forall_mem_around hcode h.folded
    fun _ => of_digit (P := fun c => foldDigit c = c) fun k hk => (plain_digit k hk).1
  plain := forall_mem_around hcode h.plain fun c hc hblank => by
    rw [isBlank_of_digit hc] at hblank
    cases hblank
  apart := by
    have hbefore := List.IsChain.prefix (List.append_assoc before _ _ ▸ h.apart)
      (List.prefix_append before (['0'] ++ after))
    have hafter := h.apart.suffix (List.suffix_append (before ++ ['0']) after)
    refine isChain_around (fun a b hb _ => isBlank_of_digit hb) (fun a b ha hblank => ?_)
      hcode hne hbefore hafter
    rw [isBlank_of_digit ha] at hblank
    cases hblank
  first := by
    intro c hc
    rw [List.append_assoc, List.head?_append] at hc
    cases hbefore : before.head? with
    | some b =>
      rw [hbefore] at hc
      cases hc
      exact h.first c (by rw [List.append_assoc, List.head?_append, hbefore]; rfl)
    | none =>
      rw [hbefore, Option.none_or, List.head?_append_of_ne_nil _ hne] at hc
      exact isBlank_of_digit (hcode c (List.mem_of_head? hc))
  last := by
    intro c hc
    rw [List.getLast?_append] at hc
    cases hafter : after.getLast? with
    | some b =>
      rw [hafter] at hc
      cases hc
      exact h.last c (by rw [List.getLast?_append, hafter]; rfl)
    | none =>
      rw [hafter, Option.none_or, List.getLast?_append_of_ne_nil _ hne] at hc
      exact isBlank_of_digit (hcode c (List.mem_of_getLast? hc))

/-- **Which digits stand between two texts decides nothing about their normal form.** -/
theorem canonical_around (h : canonical (before ++ ['0'] ++ after) = before ++ ['0'] ++ after) :
    canonical (before ++ code ++ after) = before ++ code ++ after :=
  (IsNormal.around hcode hne (h ▸ isNormal_canonical (before ++ ['0'] ++ after))).canonical_eq

end Around

end Text

end Passcode
