import Passcode.Proofs.Document.Merge
import Passcode.Vocabulary.Bundle

/-!
# Taken — where the words of a merged bundle come from

The words of a bundle that is accepted stand in its fields, a list of strings for each keyword list
and a string for each message (`Bundle.Rules.Reads`); by the usual rules they do, for such a bundle
has no faults (`Bundle.usual_reads`).  None of these fields is a mapping, so in a merged bundle each
is that of the upper one, or of the lower one where the upper one has none (`takenFrom_of_merged`).
-/

namespace Passcode

namespace Bundle

/-- The message of a bundle for an occasion, whatever it is written as. -/
def message? (fields : Fields) (o : Occasion) : Option Document :=
  match fields.get? messageField with
  | some (.mapping ms) => Fields.get? ms o.name
  | _ => none

/-- The keywords are the form of a list of strings that stands under the key in the bundle `own`, or
in the bundle `base` if `own` lacks the key. -/
def ListFrom (own base : Fields) (key : String) (keywords : List Text) : Prop :=
  ∃ words : List String,
    (own.get? key).or (base.get? key) = some (.list (words.map .string)) ∧
      keywords = (KeywordList.of (words.map String.toList)).items

/-- The message is a string that stands among the messages of the bundle `own`, or of the bundle
`base` if `own` lacks it there, and the default message if that string is empty. -/
def MessageFrom (own base : Fields) (o : Occasion) (message : String) : Prop :=
  ∃ words : String,
    (message? own o).or (message? base o) = some (.string words) ∧
      message = if words.isEmpty then o.defaultMessage else words

/-- Each list and message of the vocabulary is that of the bundle `own`, or of the bundle `base` if
`own` has none. -/
structure TakenFrom (own base : Fields) (v : Vocabulary) : Prop where
  otp : ListFrom own base "otp_keywords" v.lists.otp
  safety : ListFrom own base "safety_keywords" v.lists.safety
  money : ListFrom own base "money_indicators" v.lists.money
  parcel : ListFrom own base "parcel_keywords" v.lists.parcel
  message : ∀ o, MessageFrom own base o (v.message o)

/-- The words are a list of strings that stands under the key. -/
def ListAt (fields : Fields) (key : String) (words : List Text) : Prop :=
  ∃ strings : List String,
    fields.get? key = some (.list (strings.map .string)) ∧ words = strings.map String.toList

/-- Of a bundle that is accepted, the words are the strings that stand in its fields. -/
structure Rules.Reads (rules : Rules) : Prop where
  otp {fields : Fields} {w : Words} (h : rules.check fields = .ok w) :
    ListAt fields "otp_keywords" w.lists.otp
  safety {fields : Fields} {w : Words} (h : rules.check fields = .ok w) :
    ListAt fields "safety_keywords" w.lists.safety
  money {fields : Fields} {w : Words} (h : rules.check fields = .ok w) :
    ListAt fields "money_indicators" w.lists.money
  parcel {fields : Fields} {w : Words} (h : rules.check fields = .ok w) :
    ListAt fields "parcel_keywords" w.lists.parcel
  message {fields : Fields} {w : Words} (h : rules.check fields = .ok w) (o : Occasion) :
    ∃ words, message? fields o = some (.string words) ∧ w.messages o = some words

/-! ### Fields without faults -/

theorem exists_of_isString {items : List Document} (h : ∀ d ∈ items, isString d = true) :
    ∃ words : List String, items = words.map .string := by
  induction items with
  | nil => exact ⟨[], rfl⟩
  | cons d rest ih =>
    obtain ⟨hd, hrest⟩ := List.forall_mem_cons.mp h
    obtain ⟨words, rfl⟩ := ih hrest
    cases d with
    | string s => exact ⟨s :: words, rfl⟩
    | _ => cases hd

/-- A list without faults is a list of strings. -/
theorem exists_words_of_listFaults {d : Option Document} (h : listFaults d = 0) :
    ∃ words : List String, d = some (.list (words.map .string)) := by
  unfold listFaults at h
  split at h
  · rename_i items
    have hall : ∀ d ∈ items, isString d = true := by simpa using List.countP_eq_zero.mp h
    obtain ⟨words, rfl⟩ := exists_of_isString hall
    exact ⟨words, rfl⟩
  · cases h

theorem strings_map_string (words : List String) :
    strings (some (.list (words.map .string))) = words.map String.toList := by
  rw [strings, List.filterMap_map]
  exact congrFun List.filterMap_eq_map words

/-- Messages without faults have a string for each occasion. -/
theorem exists_message_of_messageFaults {d : Option Document} (h : messageFaults d = 0)
    (o : Occasion) :
    ∃ ms words, d = some (.mapping ms) ∧ Fields.get? ms o.name = some (.string words) := by
  unfold messageFaults at h
  split at h
  · rename_i ms
    have hcount := List.countP_eq_zero.mp (Nat.eq_zero_of_add_eq_zero h).1
    have ho := hcount o (by cases o <;> decide)
    cases hget : Fields.get? ms o.name with
    | none => simp [hget] at ho
    | some d =>
      cases d with
      | string words => exact ⟨ms, words, rfl, hget⟩
      | _ => simp [hget, isString] at ho
  · cases h

/-- The fields of a bundle without faults. -/
theorem faults_eq_zero {fields : Fields} (h : faults fields = 0) :
    (∀ key ∈ listFields, listFaults (fields.get? key) = 0) ∧
      messageFaults (fields.get? messageField) = 0 := by
  simp only [faults, listFields, List.map_cons, List.map_nil, List.foldl_cons, List.foldl_nil,
    Nat.add_eq_zero_iff, true_and] at h
  obtain ⟨⟨⟨⟨⟨h₁, h₂⟩, h₃⟩, h₄⟩, hmessages⟩, -⟩ := h
  refine ⟨?_, hmessages⟩
  simp only [listFields, List.forall_mem_cons, List.not_mem_nil, false_implies, implies_true,
    and_true]
  exact ⟨h₁, h₂, h₃, h₄⟩

/-- A list without faults gives its strings. -/
theorem listAt_of_listFaults {fields : Fields} {key : String}
    (h : listFaults (fields.get? key) = 0) : ListAt fields key (strings (fields.get? key)) := by
  obtain ⟨words, hwords⟩ := exists_words_of_listFaults h
  exact ⟨words, hwords, by rw [hwords, strings_map_string]⟩

/-- By the usual rules a bundle is accepted exactly if it has no faults. -/
theorem usual_check_eq_ok_iff {fields : Fields} {w : Words} :
    Rules.usual.check fields = .ok w ↔
      faults fields = 0 ∧ w = { lists := lists fields, messages := messages fields } := by
  dsimp only [Rules.usual]
  split
  · rename_i hfaults
    rw [Except.ok.injEq, eq_comm, and_iff_right hfaults]
  · rename_i hfaults
    exact ⟨nofun, fun h => absurd h.1 hfaults⟩

/-- By the usual rules the words of a bundle stand in its fields. -/
theorem usual_reads : Rules.usual.Reads := by
  have hlist {fields : Fields} {w : Words} (h : Rules.usual.check fields = .ok w) :
      ∀ key ∈ listFields, ListAt fields key (strings (fields.get? key)) := fun key hkey =>
    listAt_of_listFaults ((faults_eq_zero (usual_check_eq_ok_iff.mp h).1).1 key hkey)
  refine ⟨fun h => ?_, fun h => ?_, fun h => ?_, fun h => ?_, fun h o => ?_⟩
  · rw [(usual_check_eq_ok_iff.mp h).2]; exact hlist h _ (by decide)
  · rw [(usual_check_eq_ok_iff.mp h).2]; exact hlist h _ (by decide)
  · rw [(usual_check_eq_ok_iff.mp h).2]; exact hlist h _ (by decide)
  · rw [(usual_check_eq_ok_iff.mp h).2]; exact hlist h _ (by decide)
  · obtain ⟨hfaults, rfl⟩ := usual_check_eq_ok_iff.mp h
    obtain ⟨ms, words, hms, hwords⟩ := exists_message_of_messageFaults (faults_eq_zero hfaults).2 o
    exact ⟨words, by rw [message?, hms]; exact hwords, by simp only [messages, hms, hwords]⟩

/-! ### The vocabulary of a merged bundle -/

variable {rules : Rules} {own base fields : Fields} {name : Text} {v : Vocabulary}

/-- A vocabulary is what the check gives, with its lists in form. -/
theorem eq_of_vocabulary (h : vocabulary rules name fields = .ok v) :
    ∃ w, rules.check fields = .ok w ∧
      v = { locale := some name, lists := w.lists.inForm, message := w.messages.get } := by
  unfold vocabulary at h
  split at h
  · rename_i w hcheck
    exact ⟨w, hcheck, (Except.ok.inj h).symm⟩
  · cases h

/-- The vocabulary of a bundle whose fields are those of `own`, or of `base` where `own` lacks
them. -/
theorem takenFrom_of_vocabulary (hrules : rules.Reads)
    (hget : ∀ key x, (∀ fs, x ≠ .mapping fs) → fields.get? key = some x →
      (own.get? key).or (base.get? key) = some x)
    (hmessage : ∀ o words, message? fields o = some (.string words) →
      (message? own o).or (message? base o) = some (.string words))
    (h : vocabulary rules name fields = .ok v) :
    v.locale = some name ∧ TakenFrom own base v := by
  obtain ⟨w, hcheck, rfl⟩ := eq_of_vocabulary h
  have hlist {key : String} {words : List Text} (hat : ListAt fields key words) :
      ListFrom own base key (KeywordList.of words).items := by
    obtain ⟨strings, hstrings, rfl⟩ := hat
    exact ⟨strings, hget key _ nofun hstrings, rfl⟩
  refine ⟨rfl, hlist (hrules.otp hcheck), hlist (hrules.safety hcheck),
    hlist (hrules.money hcheck), hlist (hrules.parcel hcheck), fun o => ?_⟩
  obtain ⟨words, hwords, hgiven⟩ := hrules.message hcheck o
  refine ⟨words, hmessage o words hwords, ?_⟩
  simp only [GivenMessages.get, hgiven]

/-- A message of a merged bundle is that of the upper one, or of the lower one where the upper one
lacks it. -/
theorem message?_mergeFields (hown : (Document.mapping own).KeyedOnce) {o : Occasion}
    {words : String} (h : message? (Document.mergeFields base own) o = some (.string words)) :
    (message? own o).or (message? base o) = some (.string words) := by
  simp only [message?, Document.get?_mergeFields hown.fields] at h ⊢
  cases hupper : own.get? messageField with
  | none => rw [hupper] at h; exact h
  | some d =>
    rw [hupper] at h
    cases d with
    | mapping upper =>
      have hkeys := (hown.of_get? hupper).fields
      cases hlower : base.get? messageField with
      | none => rw [hlower] at h; exact Option.or_eq_some_iff.mpr (.inl h)
      | some e =>
        rw [hlower] at h
        cases e with
        | mapping lower =>
          have hstring : ∀ fs, Document.string words ≠ .mapping fs := nofun
          exact (Document.get?_mergeFields_eq_some_iff hkeys hstring).mp h
        | _ => exact Option.or_eq_some_iff.mpr (.inl h)
    | _ => cases h

/-- **A merged bundle** has each list and message from the upper one, or from the lower one where
the upper one has none. -/
theorem takenFrom_of_merged (hrules : rules.Reads) (hown : (Document.mapping own).KeyedOnce)
    (h : vocabulary rules name (Document.mergeFields base own) = .ok v) :
    v.locale = some name ∧ TakenFrom own base v :=
  takenFrom_of_vocabulary hrules
    (fun _ _ hx hget => (Document.get?_mergeFields_eq_some_iff hown.fields hx).mp hget)
    (fun _ _ => message?_mergeFields hown) h

/-- A bundle that is laid over nothing gives its own words. -/
theorem takenFrom_of_single (hrules : rules.Reads) (h : vocabulary rules name base = .ok v) :
    v.locale = some name ∧ TakenFrom base base v :=
  takenFrom_of_vocabulary hrules (fun _ _ _ hget => by rw [Option.or_self]; exact hget)
    (fun _ _ hmessage => by rw [Option.or_self]; exact hmessage) h

end Bundle

end Passcode
