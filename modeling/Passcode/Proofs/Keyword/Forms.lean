import Mathlib.Data.List.Induction
import Passcode.Detector
import Passcode.Proofs.Keyword.List
import Passcode.Proofs.Vocabulary.Taken

/-!
# Forms — a keyword list has the forms of its keywords, in the order in which they come

Going through the keywords, the form of each is put behind those before it, unless it is empty or
one of them (`KeywordList.taken`).  This is how a keyword list comes about
(`items_append_singleton`), and so its entries stand in the order in which they come first
(`pairwise_idxOf`).

The lists of a vocabulary are in form, be they given or read from a bundle.  A detector brings them
into form once more, which changes nothing (`Detector.lists_of`).
-/

namespace Passcode

open Text

/-- One more entry behind a list is left out if it is one of them. -/
theorem eraseDups_append_singleton {α : Type} [BEq α] [LawfulBEq α] [DecidableEq α] (l : List α)
    (a : α) :
    (l ++ [a]).eraseDups = if a ∈ l then l.eraseDups else l.eraseDups ++ [a] := by
  rw [List.eraseDups_append, List.removeAll]
  split
  · rename_i hmem
    simp [hmem]
  · rename_i hnot
    simp [hnot, List.eraseDups_cons]

namespace KeywordList

variable {keywords : List Text} {keyword k : Text}

/-! ### Going through the keywords -/

/-- The entries so far, with the form of one more keyword if it is neither empty nor one of them. -/
def taken (entries : List Text) (keyword : Text) : List Text :=
  if form keyword = [] ∨ form keyword ∈ entries then entries else entries ++ [form keyword]

/-- One more keyword makes one more entry, or none. -/
theorem items_append_singleton (keywords : List Text) (keyword : Text) :
    (of (keywords ++ [keyword])).items = taken (of keywords).items keyword := by
  have hmap : (keywords ++ [keyword]).map form = keywords.map form ++ [form keyword] :=
    List.map_append
  rw [taken, of, of, hmap, List.filter_append]
  by_cases hempty : form keyword = []
  · have hdrop : [form keyword].filter (fun k => !k.isEmpty) = [] :=
      List.filter_cons_of_neg (by simpa using hempty)
    rw [if_pos (.inl hempty), hdrop, List.append_nil]
  · have hkeep : [form keyword].filter (fun k => !k.isEmpty) = [form keyword] :=
      List.filter_cons_of_pos (by simpa using hempty)
    rw [hkeep, eraseDups_append_singleton]
    simp only [hempty, false_or, List.mem_eraseDups]

/-! ### The entries -/

/-- An entry has no blank at its ends and is in lowercase. -/
theorem tidy_of_mem (h : k ∈ (of keywords).items) :
    (∀ c ∈ k.head?, isBlank c = false) ∧ (∀ c ∈ k.getLast?, isBlank c = false) ∧ lower k = k := by
  obtain ⟨-, keyword, -, rfl⟩ := mem_of.mp h
  have hfirst : ∀ c ∈ (trim keyword).head?, isBlank c = false :=
    head_of_prefix (trimEnd_isPrefix _) (head_trimStart _)
  exact ⟨head_lower hfirst, getLast_lower (getLast_trimEnd _), lower_lower _⟩

/-- The entries stand in the order in which they come first among the forms. -/
theorem pairwise_idxOf (keywords : List Text) :
    (of keywords).items.Pairwise (fun a b =>
      (keywords.map form).idxOf a < (keywords.map form).idxOf b) := by
  induction keywords using List.reverseRecOn with
  | nil => exact List.Pairwise.nil
  | append_singleton keywords keyword ih =>
    have hforms : ∀ {k}, k ∈ (of keywords).items → k ∈ keywords.map form := fun hk =>
      List.mem_map.mpr (mem_of.mp hk).2
    -- Where an entry comes first is not changed by the keywords behind it.
    have hkeep : ∀ {k}, k ∈ (of keywords).items →
        ((keywords ++ [keyword]).map form).idxOf k = (keywords.map form).idxOf k := by
      intro k hk
      rw [List.map_append, List.idxOf_append, if_pos (hforms hk)]
    have hbefore : (of keywords).items.Pairwise (fun a b =>
        ((keywords ++ [keyword]).map form).idxOf a <
          ((keywords ++ [keyword]).map form).idxOf b) := by
      refine ih.imp_of_mem fun ha hb hlt => ?_
      rw [hkeep ha, hkeep hb]
      exact hlt
    rw [items_append_singleton, taken]
    split
    · exact hbefore
    · rename_i hnew
      obtain ⟨hne, hnot⟩ := not_or.mp hnew
      refine List.pairwise_append.mpr ⟨hbefore, List.pairwise_singleton _ _, fun a ha b hb => ?_⟩
      obtain rfl := List.mem_singleton.mp hb
      have hlast : form keyword ∉ keywords.map form := fun hmem =>
        hnot (mem_of.mpr ⟨hne, List.mem_map.mp hmem⟩)
      rw [hkeep ha, List.map_append, List.idxOf_append, if_neg hlast]
      exact Nat.lt_of_lt_of_le (List.idxOf_lt_length_of_mem (hforms ha)) (Nat.le_add_left _ _)

end KeywordList

/-! ### The lists of a vocabulary and of a detector -/

theorem KeywordLists.inForm_inForm (l : KeywordLists) : l.inForm.inForm = l.inForm := by
  simp only [inForm, KeywordList.of_items]

/-- The lists of a vocabulary that is read from a store are in form, whatever the rules for its
bundles are. -/
theorem Store.inForm_lists {store : Store} {rules : Bundle.Rules} {locale : Option Text}
    {v : Vocabulary} (h : (store.vocabularyBy rules locale).value = .ok v) :
    v.lists.inForm = v.lists := by
  have hbundle : ∀ {name fields}, Bundle.vocabulary rules name fields = .ok v →
      v.lists.inForm = v.lists := by
    intro name fields hread
    obtain ⟨_, -, rfl⟩ := Bundle.eq_of_vocabulary hread
    exact KeywordLists.inForm_inForm _
  unfold Store.vocabularyBy at h
  split at h
  · cases h
  · cases h
  · split at h
    · cases h
    · exact hbundle h
    · exact hbundle h
    · exact hbundle h

namespace Detector

/-- The keywords that a detector looks for. -/
def lists (d : Detector) : KeywordLists :=
  { otp := d.otp.items, safety := d.safety.items, money := d.money.items, parcel := d.parcel.items }

/-- A detector looks for the keywords of its vocabulary, in form. -/
theorem lists_of (settings : Settings) (v : Vocabulary) :
    (of settings v).lists = v.lists.inForm := rfl

end Detector

/-- **A keyword list has exactly the forms of its keywords.**  Its entries are not empty, have no
blank at their ends, are in lowercase and differ from one another.  They are the trimmed and
lowercased keywords that are not empty, in the order in which they come first, and the keyword list
of the entries is the list itself.  So a detector looks for the very keywords of its vocabulary, be
it given or read from a store. -/
theorem KeywordList.exactly_forms :
    (∀ keywords : List Text,
      (∀ k ∈ (of keywords).items, k ≠ [] ∧ (∀ c ∈ k.head?, isBlank c = false) ∧
        (∀ c ∈ k.getLast?, isBlank c = false) ∧ lower k = k) ∧
      (of keywords).items.Nodup ∧
      (∀ k, k ∈ (of keywords).items ↔
        k ≠ [] ∧ ∃ keyword ∈ keywords, lower (trim keyword) = k) ∧
      (of keywords).items.Pairwise (fun a b =>
        (keywords.map (fun keyword => lower (trim keyword))).idxOf a <
          (keywords.map (fun keyword => lower (trim keyword))).idxOf b) ∧
      of (of keywords).items = of keywords) ∧
    (∀ settings lists messages,
      (Detector.of settings (.given lists messages)).lists =
        (Vocabulary.given lists messages).lists) ∧
    ∀ (settings : Settings) (store : Store) (locale : Option Text) (v : Vocabulary),
      (store.vocabulary locale).value = .ok v → (Detector.of settings v).lists = v.lists := by
  refine ⟨fun keywords => ⟨fun k hk => ⟨(mem_of.mp hk).1, tidy_of_mem hk⟩, nodup_items keywords,
    fun k => mem_of, pairwise_idxOf keywords, of_items keywords⟩,
    fun settings lists messages => ?_, fun settings store locale v hread => ?_⟩
  · rw [Detector.lists_of]
    exact KeywordLists.inForm_inForm lists
  · rw [Detector.lists_of]
    exact Store.inForm_lists hread

/-- A final sigma, a form that is there already, and a blank keyword. -/
example : (KeywordList.of [" ΟΔΟΣ ".toList, "Code".toList, "οδος".toList, " ".toList,
    "CODE".toList]).items = ["οδος".toList, "code".toList] := by
  decide +kernel

end Passcode
