import Passcode.Keyword.List
import Passcode.Proofs.Message.Limit
import Passcode.Proofs.Text.Lowercase.Fixed

/-!
# Keyword lists — what is in form stays in form

A keyword in form is trimmed and in lowercase.  Lowercasing leaves no blank at its ends and nothing
to be lowercased, so bringing it into form again changes nothing (`form_form`).

The entries of a keyword list are the forms of the keywords that are not empty (`mem_of`), each of
them once (`nodup_items`), and the keyword list of its own entries is the list itself (`of_items`).
-/

namespace Passcode

section EraseDups

variable {α : Type} [BEq α] [LawfulBEq α]

theorem nodup_eraseDups (l : List α) : l.eraseDups.Nodup := by
  cases l with
  | nil => exact List.nodup_nil
  | cons a as =>
    rw [List.eraseDups_cons, List.nodup_cons]
    refine ⟨fun h => ?_, nodup_eraseDups _⟩
    have hne := (List.mem_filter.mp (List.mem_eraseDups.mp h)).2
    rw [beq_self_eq_true] at hne
    cases hne
termination_by l.length
decreasing_by exact Nat.lt_succ_of_le (List.length_filter_le _ _)

theorem eraseDups_of_nodup {l : List α} (h : l.Nodup) : l.eraseDups = l := by
  induction l with
  | nil => rfl
  | cons a as ih =>
    obtain ⟨hnot, hrest⟩ := List.nodup_cons.mp h
    have hkeep : as.filter (fun b => !b == a) = as :=
      List.filter_eq_self.mpr fun b hb => by
        have hne : b ≠ a := by rintro rfl; exact hnot hb
        rw [beq_false_of_ne hne]; rfl
    rw [List.eraseDups_cons, hkeep, ih hrest]

end EraseDups

namespace KeywordList

open Text

/-! ### The form of a keyword -/

/-- A keyword in form is its own form. -/
theorem form_form (keyword : Text) : form (form keyword) = form keyword := by
  have hfirst : ∀ c ∈ (trim keyword).head?, isBlank c = false :=
    head_of_prefix (trimEnd_isPrefix _) (head_trimStart _)
  have hlast : ∀ c ∈ (trim keyword).getLast?, isBlank c = false := getLast_trimEnd _
  have htrim : trim (lower (trim keyword)) = lower (trim keyword) := by
    have hstart : trimStart (lower (trim keyword)) = lower (trim keyword) :=
      trimStart_eq (head_lower hfirst)
    have hend : trimEnd (lower (trim keyword)) = lower (trim keyword) :=
      trimEnd_eq (getLast_lower hlast)
    rw [trim, hstart, hend]
  rw [form, form, htrim, lower_lower]

/-! ### The entries of a list -/

theorem mem_of {keywords : List Text} {k : Text} :
    k ∈ (of keywords).items ↔ k ≠ [] ∧ ∃ keyword ∈ keywords, form keyword = k := by
  rw [of, List.mem_eraseDups, List.mem_filter, List.mem_map, Bool.not_eq_true',
    List.isEmpty_eq_false_iff, and_comm]

/-- More keywords make a list of more. -/
theorem of_subset {keywords keywords' : List Text} (h : keywords ⊆ keywords') :
    (of keywords).items ⊆ (of keywords').items := by
  intro k hk
  obtain ⟨hne, keyword, hmem, hform⟩ := mem_of.mp hk
  exact mem_of.mpr ⟨hne, keyword, h hmem, hform⟩

theorem nodup_items (keywords : List Text) : (of keywords).items.Nodup := nodup_eraseDups _

/-- The keyword list of the entries of a keyword list is the list itself. -/
theorem of_items (keywords : List Text) : of (of keywords).items = of keywords := by
  have hform : ∀ k ∈ (of keywords).items, form k = k := by
    intro k hk
    obtain ⟨-, keyword, -, rfl⟩ := mem_of.mp hk
    exact form_form keyword
  have hmap : (of keywords).items.map form = (of keywords).items :=
    (List.map_congr_left hform).trans (List.map_id _)
  have hfilter : (of keywords).items.filter (fun k => !k.isEmpty) = (of keywords).items :=
    List.filter_eq_self.mpr fun k hk => by
      rw [Bool.not_eq_true', List.isEmpty_eq_false_iff]
      exact (mem_of.mp hk).1
  calc of (of keywords).items
      = ⟨(of keywords).items.eraseDups⟩ := by rw [of, hmap, hfilter]
    _ = of keywords := by rw [eraseDups_of_nodup (nodup_items keywords)]

end KeywordList

end Passcode
