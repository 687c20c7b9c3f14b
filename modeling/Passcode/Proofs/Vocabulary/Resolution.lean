import Mathlib.Data.List.TakeWhile
import Passcode.Proofs.Vocabulary.Taken

/-!
# Resolution — which bundles a vocabulary is made of

For a locale the names before the default one are looked up, one after the other, until one has a
bundle (`Store.lookedUp`).  That bundle is the resolved one, and else the default one is
(`Store.resolved`).  A search that ends with neither leaves a warning.  A name that the system of
files refuses counts as one whose bundle cannot be read (`Store.has`).

* `search_of_find?`, `search_of_not_find?`: the search ends as those definitions say.
* `search_congr`: no bundle but those that were looked up has a part in it.

With where the words of the merged bundle come from (`Bundle.TakenFrom`), `vocabulary_resolves`
says all of a vocabulary, whatever the rules for bundles are.  A default bundle that cannot be read
is found out before the search, so there is a fault and no warning then
(`unreadable_default_unwarned`).
-/

namespace Passcode

/-! ### What a search is about -/

namespace Store

section Search

variable (store : Store) (rules : Bundle.Rules)

/-- There is a bundle of that name, whatever is in it, or the name is refused. -/
def has (name : Text) : Bool := rules.refuses name || (store.file? name).isSome

/-- The names before the default one. -/
def beforeDefault (names : List Text) : List Text := names.takeWhile (· != defaultLocale)

/-- The first of the names before the default one that has a bundle. -/
def firstBundle? (names : List Text) : Option Text := (beforeDefault names).find? (store.has rules)

/-- The names before the default one, up to and with the first that has a bundle. -/
def lookedUp (names : List Text) : List Text :=
  (beforeDefault names).takeWhile (fun name => !store.has rules name) ++
    (store.firstBundle? rules names).toList

/-- The name of the bundle that is taken for a locale. -/
def resolved (locale : Option Text) : Text :=
  (store.firstBundle? rules (localeCandidates locale)).getD defaultLocale

/-- A search for the locale ends with neither a bundle nor the default name. -/
def Exhausted (locale : Option Text) : Prop :=
  (∀ name ∈ beforeDefault (localeCandidates locale), store.has rules name = false) ∧
    defaultLocale ∉ localeCandidates locale

instance (locale : Option Text) : Decidable (store.Exhausted rules locale) :=
  inferInstanceAs (Decidable (_ ∧ _))

/-- Each mapping in each bundle has each key once. -/
def KeyedOnce : Prop :=
  ∀ name document, store.file? name = some (.holds document) → document.KeyedOnce

end Search

/-! ### Reading -/

variable {store store' : Store} {rules : Bundle.Rules} {name : Text}

/-- A name has no bundle if it is accepted and there is no file of it. -/
theorem has_eq_false_iff :
    store.has rules name = false ↔ rules.refuses name = false ∧ store.file? name = none := by
  rw [has, Bool.or_eq_false_iff, Option.isSome_eq_false_iff, Option.isNone_iff_eq_none]

theorem read_of_not_has (h : store.has rules name = false) : store.read rules name = .ok none := by
  obtain ⟨hrefuses, hfile⟩ := has_eq_false_iff.mp h
  rw [read, hrefuses, if_neg Bool.false_ne_true, hfile]

/-- A bundle that exists is read, or at fault. -/
theorem read_of_has (h : store.has rules name = true) :
    (∃ fault, store.read rules name = .error fault) ∨
      ∃ fields, store.read rules name = .ok (some fields) := by
  cases hrefuses : rules.refuses name with
  | true => exact .inl ⟨.refused name, by rw [read, hrefuses, if_pos rfl]⟩
  | false =>
    rw [has, hrefuses, Bool.false_or] at h
    obtain ⟨file, hfile⟩ := Option.isSome_iff_exists.mp h
    rw [read, hrefuses, if_neg Bool.false_ne_true, hfile]
    cases file with
    | unreadable => exact .inl ⟨_, rfl⟩
    | undecodable words => exact .inl ⟨_, rfl⟩
    | holds document =>
      dsimp only
      split
      · exact .inr ⟨_, rfl⟩
      · exact .inl ⟨_, rfl⟩

/-- What is read depends on the file of that name alone. -/
theorem read_congr (h : store'.file? name = store.file? name) :
    store'.read rules name = store.read rules name := by
  rw [read, read, h]

/-- Fields that are read are those of a document of the store, or there are none. -/
theorem exists_of_read {fields : Fields} (h : store.read rules name = .ok (some fields)) :
    ∃ document, store.file? name = some (.holds document) ∧
      document.orEmpty = .mapping fields := by
  rw [read] at h
  split at h
  · cases h
  · split at h
    · cases h
    · cases h
    · cases h
    · rename_i document hfile
      split at h
      · rename_i hfields
        cases h
        exact ⟨document, hfile, hfields⟩
      · cases h

/-- The fields of a bundle have each key once. -/
theorem KeyedOnce.read (hkeys : store.KeyedOnce) {fields : Fields}
    (h : store.read rules name = .ok (some fields)) : (Document.mapping fields).KeyedOnce := by
  obtain ⟨document, hfile, hfields⟩ := exists_of_read h
  have hdocument := hkeys name document hfile
  rw [Document.orEmpty] at hfields
  split at hfields
  · cases hfields
    exact .mapping List.nodup_nil nofun
  · exact hfields ▸ hdocument

/-! ### Searching -/

theorem beforeDefault_cons {rest : List Text} (h : name ≠ defaultLocale) :
    beforeDefault (name :: rest) = name :: beforeDefault rest :=
  List.takeWhile_cons_of_pos (bne_iff_ne.mpr h)

/-- The search ends at the first bundle before the default name, which is laid over the default one
if it can be read. -/
theorem search_of_find? {names : List Text} (h : store.firstBundle? rules names = some name) :
    store.has rules name = true ∧
      (∀ fields, store.read rules name = .ok (some fields) →
        store.search rules names = .ok (.bundle name fields)) ∧
      ∀ fault, store.read rules name = .error fault → store.search rules names = .error fault := by
  induction names with
  | nil => cases h
  | cons first rest ih =>
    by_cases hdefault : first = defaultLocale
    · subst hdefault
      cases h
    · rw [firstBundle?, beforeDefault_cons hdefault] at h
      by_cases hfirst : store.has rules first = true
      · rw [List.find?_cons_of_pos hfirst] at h
        cases h
        refine ⟨hfirst, fun fields hread => ?_, fun fault hread => ?_⟩
        · rw [search, if_neg hdefault, hread]
        · rw [search, if_neg hdefault, hread]
      · rw [List.find?_cons_of_neg hfirst] at h
        rw [search, if_neg hdefault, read_of_not_has (Bool.eq_false_iff.mpr hfirst)]
        exact ih h

/-- A search that finds no bundle ends at the default name, or with the names exhausted. -/
theorem search_of_not_find? {names : List Text} (h : store.firstBundle? rules names = none) :
    store.search rules names =
      .ok (if defaultLocale ∈ names then .theDefault else .exhausted) := by
  induction names with
  | nil => rfl
  | cons first rest ih =>
    by_cases hdefault : first = defaultLocale
    · subst hdefault
      rw [search, if_pos rfl, if_pos List.mem_cons_self]
    · rw [firstBundle?, beforeDefault_cons hdefault, List.find?_cons] at h
      split at h
      · cases h
      · rename_i hfirst
        rw [search, if_neg hdefault, read_of_not_has hfirst]
        have hmem : defaultLocale ∈ first :: rest ↔ defaultLocale ∈ rest :=
          List.mem_cons.trans (or_iff_right (fun heq => hdefault heq.symm))
        simp only [hmem]
        exact ih h

/-- **What a search depends on**: stores that agree on the names that are looked up in one of them
end the search alike. -/
theorem search_congr {names : List Text}
    (h : ∀ name ∈ store.lookedUp rules names, store'.file? name = store.file? name) :
    store'.search rules names = store.search rules names := by
  induction names with
  | nil => rfl
  | cons first rest ih =>
    by_cases hdefault : first = defaultLocale
    · rw [search, search, if_pos hdefault, if_pos hdefault]
    · rw [lookedUp, firstBundle?, beforeDefault_cons hdefault] at h
      by_cases hfirst : store.has rules first = true
      · rw [List.find?_cons_of_pos hfirst] at h
        have hsame : store'.read rules first = store.read rules first :=
          read_congr (h first (List.mem_append_right _ List.mem_cons_self))
        rw [search, search, if_neg hdefault, if_neg hdefault, hsame]
        rcases read_of_has hfirst with ⟨fault, hread⟩ | ⟨fields, hread⟩
        · rw [hread]
        · rw [hread]
      · rw [List.find?_cons_of_neg hfirst, List.takeWhile_cons_of_pos (by simpa using hfirst)] at h
        have hsame : store'.read rules first = store.read rules first :=
          read_congr (h first (List.mem_append_left _ List.mem_cons_self))
        have hrest := ih fun name hname => h name (List.mem_cons_of_mem _ hname)
        rw [search, search, if_neg hdefault, if_neg hdefault, hsame, hrest]

/-- Nothing is found exactly if the names before the default one have no bundle. -/
theorem firstBundle?_eq_none_iff {names : List Text} :
    store.firstBundle? rules names = none ↔
      ∀ name ∈ beforeDefault names, store.has rules name = false := by
  rw [firstBundle?, List.find?_eq_none]
  simp only [Bool.not_eq_true]

theorem ne_default_of_mem_beforeDefault {names : List Text} (h : name ∈ beforeDefault names) :
    name ≠ defaultLocale := by
  have hne := List.mem_takeWhile_imp h
  exact bne_iff_ne.mp hne

/-! ### The vocabulary of a locale -/

/-- The fields of a bundle laid over those of the default one, which is not laid over itself. -/
def laidOver (base : Fields) (name : Text) (own : Fields) : Fields :=
  if name = defaultLocale then base else Document.mergeFields base own

/-- A bundle that is laid over the default one gives its own words, and the default ones where it
has none. -/
theorem takenFrom_of_laidOver (hrules : rules.Reads) {base own : Fields} {v : Vocabulary}
    (hown : (Document.mapping own).KeyedOnce) (hsame : name = defaultLocale → own = base)
    (h : Bundle.vocabulary rules name (laidOver base name own) = .ok v) :
    v.locale = some name ∧ Bundle.TakenFrom own base v := by
  rw [laidOver] at h
  split at h
  · rename_i hdefault
    rw [hsame hdefault]
    exact Bundle.takenFrom_of_single hrules h
  · exact Bundle.takenFrom_of_merged hrules hown h

section Vocabulary

variable {base : Fields} {locale : Option Text}

/-- With a default bundle, a vocabulary is at fault with the first bundle before the default name,
made of that and the default one, or made of the default one alone. -/
theorem vocabulary_cases (hbase : store.read rules defaultLocale = .ok (some base))
    (locale : Option Text) :
    (∃ name fault, store.firstBundle? rules (localeCandidates locale) = some name ∧
        store.read rules name = .error fault ∧
          store.vocabularyBy rules locale = .quiet (.error fault)) ∨
    (∃ name own, store.firstBundle? rules (localeCandidates locale) = some name ∧
        store.read rules name = .ok (some own) ∧
          store.vocabularyBy rules locale =
            .quiet (Bundle.vocabulary rules name (Document.mergeFields base own))) ∨
    (store.firstBundle? rules (localeCandidates locale) = none ∧
      store.vocabularyBy rules locale =
        ⟨if defaultLocale ∈ localeCandidates locale then [] else [noBundle locale],
          Bundle.vocabulary rules defaultLocale base⟩) := by
  cases hfirst : store.firstBundle? rules (localeCandidates locale) with
  | some name =>
    obtain ⟨hhas, hfields, hfault⟩ := search_of_find? hfirst
    rcases read_of_has hhas with ⟨fault, hread⟩ | ⟨own, hread⟩
    · exact .inl ⟨name, fault, rfl, hread, by rw [vocabularyBy, hbase, hfault fault hread]⟩
    · exact .inr (.inl ⟨name, own, rfl, hread, by rw [vocabularyBy, hbase, hfields own hread]⟩)
  | none =>
    refine .inr (.inr ⟨rfl, ?_⟩)
    rw [vocabularyBy, hbase, search_of_not_find? hfirst]
    by_cases hmem : defaultLocale ∈ localeCandidates locale
    · rw [if_pos hmem, if_pos hmem]; rfl
    · rw [if_neg hmem, if_neg hmem]

theorem resolved_of_find? (h : store.firstBundle? rules (localeCandidates locale) = some name) :
    store.resolved rules locale = name ∧ name ≠ defaultLocale := by
  rw [resolved, h]
  exact ⟨rfl, ne_default_of_mem_beforeDefault (List.mem_of_find?_eq_some h)⟩

/-- What the resolved bundle holds decides the vocabulary. -/
theorem value_vocabulary (hbase : store.read rules defaultLocale = .ok (some base))
    (locale : Option Text) :
    (∃ fault, store.read rules (store.resolved rules locale) = .error fault ∧
        (store.vocabularyBy rules locale).value = .error fault) ∨
      ∃ own, store.read rules (store.resolved rules locale) = .ok (some own) ∧
        (store.resolved rules locale = defaultLocale → own = base) ∧
          (store.vocabularyBy rules locale).value =
            Bundle.vocabulary rules (store.resolved rules locale)
              (laidOver base (store.resolved rules locale) own) := by
  rcases vocabulary_cases hbase locale with
    ⟨name, fault, hfirst, hread, heq⟩ | ⟨name, own, hfirst, hread, heq⟩ | ⟨hfirst, heq⟩
  · obtain ⟨hresolved, -⟩ := resolved_of_find? hfirst
    rw [hresolved, heq]
    exact .inl ⟨fault, hread, rfl⟩
  · obtain ⟨hresolved, hne⟩ := resolved_of_find? hfirst
    rw [hresolved, heq]
    exact .inr ⟨own, hread, fun h => absurd h hne, by rw [laidOver, if_neg hne]; rfl⟩
  · rw [resolved, hfirst, Option.getD_none, heq]
    exact .inr ⟨base, hbase, fun _ => rfl, by rw [laidOver, if_pos rfl]⟩

/-- The warning is written exactly if the search is exhausted. -/
theorem entries_vocabulary (hbase : store.read rules defaultLocale = .ok (some base))
    (locale : Option Text) :
    (store.Exhausted rules locale →
        (store.vocabularyBy rules locale).entries = [noBundle locale]) ∧
      (¬ store.Exhausted rules locale → (store.vocabularyBy rules locale).entries = []) := by
  have hfound : ∀ name, store.firstBundle? rules (localeCandidates locale) = some name →
      ¬ store.Exhausted rules locale := by
    intro name hfirst h
    rw [firstBundle?_eq_none_iff.mpr h.1] at hfirst
    cases hfirst
  rcases vocabulary_cases hbase locale with
    ⟨name, fault, hfirst, -, heq⟩ | ⟨name, own, hfirst, -, heq⟩ | ⟨hfirst, heq⟩
  · rw [heq]
    exact ⟨fun h => absurd h (hfound name hfirst), fun _ => rfl⟩
  · rw [heq]
    exact ⟨fun h => absurd h (hfound name hfirst), fun _ => rfl⟩
  · have hnone := firstBundle?_eq_none_iff.mp hfirst
    rw [heq]
    exact ⟨fun h => if_neg h.2, fun h => if_pos (by_contra fun hmem => h ⟨hnone, hmem⟩)⟩

/-- Only the default bundle and those that are looked up decide on a vocabulary. -/
theorem vocabulary_congr (hdefault : store'.file? defaultLocale = store.file? defaultLocale)
    (h : ∀ name ∈ store.lookedUp rules (localeCandidates locale),
      store'.file? name = store.file? name) :
    store'.vocabularyBy rules locale = store.vocabularyBy rules locale := by
  rw [vocabularyBy, vocabularyBy, read_congr hdefault, search_congr h]

end Vocabulary

/-- **Resolution**: a default bundle that cannot be read is at fault at once, without a warning, for
every locale.  Otherwise the first name before the default one that has a bundle is resolved to, and
else the default name; there is one warning if no such name has a bundle and the default name is not
to be tried, and else none.  If the resolved bundle cannot be read, it is at fault; if it can, it is
laid over the default one and checked, and a vocabulary has each list and message from the resolved
bundle, or from the default one where the resolved one has none.  No bundle plays a part but the
default one and those up to the resolved one. -/
theorem vocabulary_resolves {rules : Bundle.Rules} (hrules : rules.Reads) (store : Store)
    (hkeys : store.KeyedOnce)
    (hdefault : store.has rules defaultLocale = true) (locale : Option Text) :
    ((∃ fault, store.read rules defaultLocale = .error fault ∧
        store.vocabularyBy rules locale = .quiet (.error fault)) ∨
      ∃ base, store.read rules defaultLocale = .ok (some base) ∧
        (store.Exhausted rules locale →
          (store.vocabularyBy rules locale).entries = [noBundle locale]) ∧
        (¬ store.Exhausted rules locale → (store.vocabularyBy rules locale).entries = []) ∧
        ((∃ fault, store.read rules (store.resolved rules locale) = .error fault ∧
            (store.vocabularyBy rules locale).value = .error fault) ∨
          ∃ own, store.read rules (store.resolved rules locale) = .ok (some own) ∧
            (store.vocabularyBy rules locale).value =
              Bundle.vocabulary rules (store.resolved rules locale)
                (laidOver base (store.resolved rules locale) own) ∧
            ∀ v, (store.vocabularyBy rules locale).value = .ok v →
              v.locale = some (store.resolved rules locale) ∧ Bundle.TakenFrom own base v)) ∧
    ∀ store' : Store, store'.file? defaultLocale = store.file? defaultLocale →
      (∀ name ∈ store.lookedUp rules (localeCandidates locale),
        store'.file? name = store.file? name) →
      store'.vocabularyBy rules locale = store.vocabularyBy rules locale := by
  refine ⟨?_, fun store' hsame hlooked => vocabulary_congr hsame hlooked⟩
  rcases read_of_has hdefault with ⟨fault, hfault⟩ | ⟨base, hbase⟩
  · exact .inl ⟨fault, hfault, by rw [vocabularyBy, hfault]⟩
  · obtain ⟨hwarned, hsilent⟩ := entries_vocabulary hbase locale
    refine .inr ⟨base, hbase, hwarned, hsilent, ?_⟩
    rcases value_vocabulary hbase locale with hfault | ⟨own, hread, hsame, hvalue⟩
    · exact .inl hfault
    · refine .inr ⟨own, hread, hvalue, fun v hv => ?_⟩
      rw [hvalue] at hv
      exact takenFrom_of_laidOver hrules (hkeys.read hread) hsame hv

/-! ### Stores -/

/-- A default bundle, a bundle that has only some fields, and one that cannot be read. -/
def alpine : Store :=
  [(defaultLocale, .holds (.mapping
     [("otp_keywords", .list [.string "otp"]), ("safety_keywords", .list [.string "Share"]),
      ("money_indicators", .list []), ("parcel_keywords", .list []),
      ("errors", .mapping
        [("empty_message", .string "Nothing"), ("no_otp_keyword", .string ""),
         ("keyword_but_no_code", .string "No code"),
         ("parcel_keyword_but_no_code", .string "No code")])])),
   ("de".toList, .holds (.mapping
     [("otp_keywords", .list [.string " Kennwort", .string "kennwort"]),
      ("errors", .mapping [("empty_message", .string "Leer")])])),
   ("de_ch".toList, .unreadable)]

theorem alpine_keyedOnce : alpine.KeyedOnce := by
  have hstrings : ∀ words : List String, (Document.list (words.map .string)).KeyedOnce := by
    intro words
    refine .list fun d hd => ?_
    obtain ⟨w, -, rfl⟩ := List.mem_map.mp hd
    exact .string w
  intro name document h
  obtain ⟨⟨name', file⟩, hfind, hfile⟩ := Option.map_eq_some_iff.mp h
  have hmem := List.mem_of_find?_eq_some hfind
  cases hfile
  simp only [alpine, List.mem_cons, Prod.mk.injEq, BundleFile.holds.injEq, reduceCtorEq, and_false,
    List.not_mem_nil, or_false] at hmem
  rcases hmem with ⟨-, rfl⟩ | ⟨-, rfl⟩
  · refine .mapping (by decide) ?_
    simp only [List.forall_mem_cons, List.not_mem_nil, false_implies, implies_true, and_true]
    refine ⟨hstrings ["otp"], hstrings ["Share"], hstrings [], hstrings [], ?_⟩
    refine .mapping (by decide) ?_
    simp only [List.forall_mem_cons, List.not_mem_nil, false_implies, implies_true, and_true]
    exact ⟨.string _, .string _, .string _, .string _⟩
  · refine .mapping (by decide) ?_
    simp only [List.forall_mem_cons, List.not_mem_nil, false_implies, implies_true, and_true]
    refine ⟨hstrings [" Kennwort", "kennwort"], .mapping (by decide) ?_⟩
    simp only [List.forall_mem_cons, List.not_mem_nil, false_implies, implies_true, and_true]
    exact .string _

/-- A locale of a country without a bundle is resolved to the bundle of the language, whose lists
and messages stand before the default ones. -/
theorem vocabulary_resolves_alpine :
    alpine.KeyedOnce ∧ alpine.has .usual defaultLocale = true ∧
      alpine.resolved .usual (some "de-AT".toList) = "de".toList ∧
        ∃ v own base, (alpine.vocabulary (some "de-AT".toList)).value = .ok v ∧
          v.locale = some "de".toList ∧ Bundle.TakenFrom own base v ∧
            v.lists.otp = ["kennwort".toList] ∧ v.lists.safety = ["share".toList] ∧
              v.message .emptyMessage = "Leer" ∧
                v.message .noOtpKeyword = Occasion.noOtpKeyword.defaultMessage := by
  have hdefault : alpine.has .usual defaultLocale = true := by decide +kernel
  have hresolved : alpine.resolved .usual (some "de-AT".toList) = "de".toList := by decide +kernel
  have hwords : ((alpine.vocabulary (some "de-AT".toList)).value.toOption.map
      (fun v => (v.lists.otp, v.lists.safety, v.message .emptyMessage, v.message .noOtpKeyword))) =
        some (["kennwort".toList], ["share".toList], "Leer",
          Occasion.noOtpKeyword.defaultMessage) := by decide +kernel
  obtain ⟨hcases, -⟩ :=
    vocabulary_resolves Bundle.usual_reads alpine alpine_keyedOnce hdefault (some "de-AT".toList)
  cases hvalue : (alpine.vocabulary (some "de-AT".toList)).value with
  | error fault => rw [hvalue] at hwords; cases hwords
  | ok v =>
    rw [hvalue] at hwords
    simp only [Except.toOption, Option.map_some, Option.some.injEq, Prod.mk.injEq] at hwords
    obtain ⟨hotp, hsafety, hempty, hno⟩ := hwords
    rcases hcases with ⟨fault, -, hquiet⟩ | ⟨base, -, -, -, hfault | ⟨own, -, -, htaken⟩⟩
    · rw [vocabulary, hquiet] at hvalue; cases hvalue
    · obtain ⟨fault, -, hvalue'⟩ := hfault
      rw [vocabulary, hvalue'] at hvalue; cases hvalue
    · obtain ⟨hlocale, hfrom⟩ := htaken v hvalue
      rw [hresolved] at hlocale
      exact ⟨alpine_keyedOnce, hdefault, hresolved, v, own, base, rfl, hlocale, hfrom, hotp,
        hsafety, hempty, hno⟩

/-- A default bundle that cannot be read. -/
def unreadableDefault : Store := [(defaultLocale, .unreadable)]

/-- The names for French are exhausted and the default name is not among them, and yet there is no
warning: the default bundle is read first. -/
theorem unreadable_default_unwarned :
    unreadableDefault.KeyedOnce ∧ unreadableDefault.has .usual defaultLocale = true ∧
      unreadableDefault.Exhausted .usual (some "fr".toList) ∧
        (unreadableDefault.vocabulary (some "fr".toList)).entries = [] ∧
          ¬ ((unreadableDefault.vocabulary (some "fr".toList)).entries =
              [noBundle (some "fr".toList)] ↔
              unreadableDefault.Exhausted .usual (some "fr".toList)) := by
  have hexhausted : unreadableDefault.Exhausted .usual (some "fr".toList) := by decide +kernel
  have hnone : (unreadableDefault.vocabulary (some "fr".toList)).entries = [] := rfl
  refine ⟨fun name document h => ?_, by decide +kernel, hexhausted, hnone, fun h => ?_⟩
  · obtain ⟨⟨name', file⟩, hfind, hfile⟩ := Option.map_eq_some_iff.mp h
    have hmem := List.mem_of_find?_eq_some hfind
    cases hfile
    simp [unreadableDefault] at hmem
  · rw [h.mpr hexhausted] at hnone
    cases hnone

end Store

end Passcode
