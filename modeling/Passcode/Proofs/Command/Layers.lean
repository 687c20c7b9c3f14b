import Passcode.Proofs.Command.Stages
import Passcode.Proofs.Command.Standard
import Passcode.Proofs.Settings.Precedence

/-!
# Layers — where the settings of a run come from

The settings of a run have four sources.  The document of the user is that of the settings file, or
null where the command line names none (`Overrides`); it is laid over the default one, the locale of
the environment stands over both, and that of the command line over all (`loadSettings_layers`).
-/

namespace Passcode

namespace Command

open Stage

variable {w : Workplace} {config locale : Option Text}

/-- The document of the user: that of the settings file, or null where none is named. -/
def Overrides (w : Workplace) : Option Text → Document → Prop
  | none, d => d = .null
  | some path, d => ∃ bytes, w.folder.read (.of path) = .ok bytes ∧ w.tools.document bytes = .ok d

/-- What is read of a settings file is its document. -/
theorem exists_overrides {override : Option Document}
    (h : (readOverride w config).value = .ok override) :
    ∃ d, Overrides w config d ∧ Settings.loadBy w.tools.conversion override w.envLocale =
      Settings.loadBy w.tools.conversion (some d) w.envLocale := by
  cases config with
  -- Null binds nothing, so it is laid over the default document as no document is.
  | none =>
    cases h
    exact ⟨.null, rfl, rfl⟩
  | some path =>
    cases hread : w.folder.read (.of path) with
    | error fault =>
      rw [readOverride, hread] at h
      cases fault with
      | nullCharacter => cases (value_leaveInShort w 4 (by decide)).symm.trans h
      | _ => cases (ends_leave w 3 _).value.symm.trans h
    | ok bytes =>
      cases hdocument : w.tools.document bytes with
      | ok d =>
        simp only [readOverride, hread, hdocument] at h
        cases h
        exact ⟨d, ⟨bytes, hread, hdocument⟩, rfl⟩
      | error words =>
        simp only [readOverride, hread, hdocument, leaveInShort] at h
        split at h
        · cases (ends_leave w 4 _).value.symm.trans h
        · cases h

/-- The document of the user is what is read of the settings file. -/
theorem value_readOverride_of_overrides {d : Document} (h : Overrides w config d) :
    ∃ override, (readOverride w config).value = .ok override ∧
      Settings.loadBy w.tools.conversion override w.envLocale =
        Settings.loadBy w.tools.conversion (some d) w.envLocale := by
  cases config with
  | none =>
    cases h
    exact ⟨none, rfl, rfl⟩
  | some path =>
    obtain ⟨bytes, hread, hdocument⟩ := h
    refine ⟨some d, ?_, rfl⟩
    simp only [readOverride, hread, hdocument]
    rfl

/-- In the document of the user each mapping has each key once. -/
theorem Overrides.keyedOnce (hkeys : w.tools.KeysOnce) {d : Document} (h : Overrides w config d) :
    d.KeyedOnce := by
  cases config with
  | none => cases h; exact .null
  | some path =>
    obtain ⟨bytes, -, hdocument⟩ := h
    exact hkeys bytes d hdocument

/-- **The settings of a run** are loaded exactly if there is a document of the user and it is
acceptable.  They have the values that it binds and the default ones where it binds none, with the
locale of the command line, or else of the environment, over that. -/
theorem loadSettings_layers (hkeeps : w.tools.conversion.Keeps) (hkeys : w.tools.KeysOnce) :
    ((∃ s, (loadSettings w config locale).value = .ok s) ↔
      ∃ d, Overrides w config d ∧ Settings.Acceptable w.tools.conversion d) ∧
    ∀ s, (loadSettings w config locale).value = .ok s →
      ∃ d loaded, Overrides w config d ∧
        Settings.Layered w.tools.conversion d w.envLocale loaded ∧
          s = { loaded with locale := (given locale).getD loaded.locale } := by
  refine ⟨⟨fun ⟨s, hs⟩ => ?_, fun ⟨d, hd, hacceptable⟩ => ?_⟩, fun s hs => ?_⟩
  · obtain ⟨override, loaded, hoverride, hload, -⟩ := exists_of_loadSettings hs
    obtain ⟨d, hd, hsame⟩ := exists_overrides hoverride
    have hacceptable := (Settings.exists_load_iff hkeeps (hd.keyedOnce hkeys)).mp
      ⟨loaded, hsame.symm.trans hload⟩
    exact ⟨d, hd, hacceptable⟩
  · obtain ⟨override, hoverride, hsame⟩ := value_readOverride_of_overrides hd
    obtain ⟨loaded, hload⟩ :=
      (Settings.exists_load_iff hkeeps (hd.keyedOnce hkeys)).mpr hacceptable
    exact ⟨_, value_loadSettings_of_ok hoverride (hsame.trans hload)⟩
  · obtain ⟨override, loaded, hoverride, hload, rfl⟩ := exists_of_loadSettings hs
    obtain ⟨d, hd, hsame⟩ := exists_overrides hoverride
    have hlayered :=
      Settings.layered_of_load hkeeps (hd.keyedOnce hkeys) (hsame.symm.trans hload)
    exact ⟨d, loaded, hd, hlayered, rfl⟩

/-- The standard tools ask for nothing more of a settings file. -/
theorem exists_loadSettings_of_standard (htools : w.tools = .standard) :
    (∃ s, (loadSettings w config locale).value = .ok s) ↔
      ∃ d, Overrides w config d ∧ Settings.Acceptable w.tools.conversion d :=
  have hkeeps : w.tools.conversion.Keeps := by rw [htools]; exact Conversion.generous_keeps
  have hkeys : w.tools.KeysOnce := by rw [htools]; exact Tools.standard_keysOnce
  (loadSettings_layers hkeeps hkeys).1

end Command

end Passcode
