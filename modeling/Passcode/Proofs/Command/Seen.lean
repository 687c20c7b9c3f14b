import Passcode.Command.Stage

/-!
# Seen — what can be seen of stages one after the other

`Stage.Ends` says of a stage all that matters outside: its value or stop, what it prints, and which
files it changes.  What is seen of two stages, one after the other, is what is seen of the first and
then of the second (`Ends.bind`); if the first one stops, it is what was seen until then
(`Ends.bind_error`).

A stage is *silent* if it prints nothing and changes no file, however it ends (`Stage.Silent`).  It
may make notes and tell words.
-/

namespace Passcode

namespace Stage

variable {α β : Type}

/-- What can be seen of a stage, apart from its words. -/
structure Ends (s : Stage α) (value : Except Stop α) (stdout : Text)
    (changes : List (List Text × Text)) : Prop where
  value : s.value = value
  stdout : s.stdout = stdout
  changes : s.changes = changes

/-- The stage prints nothing and changes no file. -/
structure Silent (s : Stage α) : Prop where
  stdout : s.stdout = []
  changes : s.changes = []

variable {s : Stage α} {f : α → Stage β}

/-! ### Values -/

theorem bind_eq : s >>= f = s.bind f := rfl

/-- A value that is given is given to the next stage. -/
theorem pure_bind (x : α) (f : α → Stage β) : (pure x >>= f) = f x := rfl

/-- Behind a stage that gives a value, the next one decides. -/
theorem value_bind_of_ok {x : α} (h : s.value = .ok x) : (s >>= f).value = (f x).value := by
  rw [bind_eq, bind, h]

/-- Behind a stage that stops the run there is no other. -/
theorem value_bind_of_error {stop : Stop} (h : s.value = .error stop) :
    (s >>= f).value = .error stop := by
  rw [bind_eq, bind, h]

/-- Two stages give a value exactly if both do. -/
theorem value_bind_eq_ok_iff {y : β} :
    (s >>= f).value = .ok y ↔ ∃ x, s.value = .ok x ∧ (f x).value = .ok y := by
  cases h : s.value with
  | error stop => simp [value_bind_of_error h]
  | ok x => simp [value_bind_of_ok h]

/-- Two stages stop where the first one does, or where the second one does behind it. -/
theorem value_bind_eq_error_iff {stop : Stop} :
    (s >>= f).value = .error stop ↔
      s.value = .error stop ∨ ∃ x, s.value = .ok x ∧ (f x).value = .error stop := by
  cases h : s.value with
  | error stop' => simp [value_bind_of_error h]
  | ok x => simp [value_bind_of_ok h]

/-! ### Effects -/

/-- The effects of a stage come before those of the next one. -/
theorem effects_bind_of_ok {x : α} (h : s.value = .ok x) :
    (s >>= f).effects = s.effects ++ (f x).effects := by
  rw [bind_eq, bind, h]

/-- What a stage that stops the run did before stays done. -/
theorem effects_bind_of_error {stop : Stop} (h : s.value = .error stop) :
    (s >>= f).effects = s.effects := by
  rw [bind_eq, bind, h]

/-- A single effect is seen as what it says on the standard output or changes of a file. -/
theorem ends_perform (e : Effect) :
    (perform e).Ends (.ok ()) (e.onStdout ++ []) ([e].filterMap Effect.change?) := ⟨rfl, rfl, rfl⟩

/-- Of a silent stage nothing is seen but its value. -/
theorem Silent.ends (h : s.Silent) {value : Except Stop α} (hvalue : s.value = value) :
    s.Ends value [] [] := ⟨hvalue, h.stdout, h.changes⟩

/-- **One stage after the other**: what is seen is what is seen of both. -/
theorem Ends.bind {x : α} {out out' : Text} {changes changes' : List (List Text × Text)}
    {value : Except Stop β} (hs : s.Ends (.ok x) out changes)
    (hf : (f x).Ends value out' changes') :
    (s >>= f).Ends value (out ++ out') (changes ++ changes') where
  value := (value_bind_of_ok hs.value).trans hf.value
  stdout := by
    rw [← hs.stdout, ← hf.stdout, Stage.stdout, effects_bind_of_ok hs.value, List.flatMap_append]
    rfl
  changes := by
    rw [← hs.changes, ← hf.changes, Stage.changes, effects_bind_of_ok hs.value,
      List.filterMap_append]
    rfl

/-- Behind a stage that stops nothing more is seen. -/
theorem Ends.bind_error {stop : Stop} {out : Text} {changes : List (List Text × Text)}
    (hs : s.Ends (.error stop) out changes) : (s >>= f).Ends (.error stop) out changes where
  value := value_bind_of_error hs.value
  stdout := by
    rw [Stage.stdout, effects_bind_of_error hs.value]
    exact hs.stdout
  changes := by
    rw [Stage.changes, effects_bind_of_error hs.value]
    exact hs.changes

/-- A silent stage in front is not seen. -/
theorem Silent.bind_ends (hs : s.Silent) {x : α} (hx : s.value = .ok x) {out : Text}
    {changes : List (List Text × Text)} {value : Except Stop β}
    (hf : (f x).Ends value out changes) : (s >>= f).Ends value out changes :=
  (hs.ends hx).bind hf

/-- A silent stage behind is not seen either. -/
theorem Ends.bind_silent {s : Stage Unit} {f : Unit → Stage Unit} {out : Text}
    {changes : List (List Text × Text)} {value : Except Stop Unit} (hs : s.Ends value out changes)
    (hsilent : (f ()).Silent) (hf : (f ()).value = .ok ()) : (s >>= f).Ends value out changes := by
  cases value with
  | error stop => exact hs.bind_error
  | ok x =>
    have hboth := hs.bind (hsilent.ends hf)
    rwa [List.append_nil, List.append_nil] at hboth

/-! ### Silent stages -/

theorem silent_pure (x : α) : (pure x : Stage α).Silent := ⟨rfl, rfl⟩

theorem silent_stop (stop : Stop) : (Stage.stop stop : Stage α).Silent := ⟨rfl, rfl⟩

/-- What is said on the error output is not seen on the standard one. -/
theorem silent_told (text : Text) : (perform (.told text)).Silent := ⟨rfl, rfl⟩

/-- A warning goes to the error output. -/
theorem silent_ofLogged (l : Logged α) : (ofLogged l).Silent where
  stdout := List.flatMap_eq_nil_iff.mpr fun e he => by
    obtain ⟨entry, -, rfl⟩ := List.mem_map.mp he
    rfl
  changes := List.filterMap_eq_nil_iff.mpr fun e he => by
    obtain ⟨entry, -, rfl⟩ := List.mem_map.mp he
    rfl

/-- Silent stages one after the other are silent. -/
theorem silent_bind (hs : s.Silent) (hf : ∀ x, s.value = .ok x → (f x).Silent) :
    (s >>= f).Silent := by
  cases h : s.value with
  | error stop =>
    have hends := (hs.ends h).bind_error (f := f)
    exact ⟨hends.stdout, hends.changes⟩
  | ok x =>
    have hends := hs.bind_ends h ((hf x h).ends rfl)
    exact ⟨hends.stdout, hends.changes⟩

end Stage

end Passcode
