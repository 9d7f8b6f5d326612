import MessageBus.Proofs.Config.StoreMaps

/-! # Settings from the files and the environment

    Four settings can be configured, each in a variable of the environment and in
    both files.  The first place that tells of a setting decides it: the variable
    unless it is empty, the file of the user, the file of the system.  An empty
    text in a file tells as much as any other.

    The file of the system is read only for what the user's does not tell, so one
    that cannot be read does no harm beside a file that tells everything.

    * `value?_of_readable`: a look-up beside what the two files tell.
    * `ofStore_of_ok`, `ofStore_of_error`: the four look-ups together.
    * `load_by_layers`: when the settings cannot be loaded, and what they are
      otherwise. -/

namespace MessageBus

/-! ## What a file tells -/

namespace FileState

/-- What is wrong with a file that cannot be read. -/
def failure? (f : FileState) : Option BusError :=
  match f.sections with
  | .ok _ => none
  | .error e => some e

/-- What a file tells of a setting; one that cannot be read tells nothing. -/
def value? (f : FileState) (k : SettingKey) : Option String :=
  match f.sections with
  | .ok s => s.value? k
  | .error _ => none

end FileState

namespace ConfigStore

variable {s : ConfigStore} {e : BusError} {k : SettingKey}

/-- Nothing is found beside a file of the user that cannot be read. -/
theorem value?_of_failure (h : s.user.failure? = some e) : s.value? k = .error e := by
  unfold FileState.failure? at h
  split at h
  · cases h
  · next hread =>
    cases h
    simp [value?, hread, bind, Except.bind]

/-- Beside a file of the user that can be read, only a setting of which it does not tell needs the
file of the system. -/
theorem value?_of_readable (h : s.user.failure? = none) (k : SettingKey) :
    s.value? k =
      match s.user.value? k, s.system.failure? with
      | none, some e => .error e
      | _, _ => .ok ((s.user.value? k).or (s.system.value? k)) := by
  unfold FileState.failure? at h
  split at h
  · next user huser =>
    have htold : s.user.value? k = user.value? k := by simp [FileState.value?, huser]
    have hsystem : s.value? k =
        (user.value? k).elim (s.system.sections.map (·.value? k)) fun v => .ok (some v) := by
      simp only [value?, huser, bind, Except.bind, pure, Except.pure]
      cases user.value? k with
      | some v => rfl
      | none => cases s.system.sections <;> rfl
    rw [hsystem, htold]
    cases user.value? k with
    | some v => rfl
    | none =>
      cases hread : s.system.sections with
      | ok system => simp [FileState.failure?, FileState.value?, hread, Except.map]
      | error e => simp [FileState.failure?, hread, Except.map]
  · cases h

end ConfigStore

/-! ## The settings that can be configured -/

/-- A setting that the files and the environment can give. -/
inductive Configurable where
  | uri
  | key
  | realm
  | insecure

namespace Configurable

/-- Where the files have the setting. -/
def address : Configurable → SettingKey
  | uri => ⟨"bus", "primary"⟩
  | key => ⟨"bus", "key"⟩
  | realm => ⟨"bus", "realm"⟩
  | insecure => ⟨"bus", "insecure"⟩

/-- The variable of the environment for the setting. -/
def envName : Configurable → String
  | uri => "PMB_PRIMARY_URI"
  | key => "PMB_KEY"
  | realm => "PMB_REALM"
  | insecure => "PMB_SSL_INSECURE_SKIP_VERIFY"

theorem isSound_address (x : Configurable) : x.address.IsSound := by
  constructor <;> cases x <;> decide

/-- What the two files tell, the user's first. -/
def stored (s : ConfigStore) (x : Configurable) : Option String :=
  (s.user.value? x.address).or (s.system.value? x.address)

/-- What is told first: by the environment unless it is empty there, then by the files. -/
def told (s : ConfigStore) (env : Settings.Environment) (x : Configurable) : Option String :=
  (env.nonempty x.envName).or (x.stored s)

end Configurable

namespace ConfigStore

variable {s : ConfigStore} {e : BusError}

/-- The settings cannot be loaded: the user's file cannot be read, or the system's cannot and is
needed. -/
def Fails (s : ConfigStore) (e : BusError) : Prop :=
  s.user.failure? = some e ∨
    s.user.failure? = none ∧ s.system.failure? = some e ∧
      ∃ x : Configurable, s.user.value? x.address = none

theorem get_address (s : ConfigStore) (x : Configurable) :
    s.get x.address.render = s.value? x.address := by
  unfold get
  rw [SettingKey.parse_render x.isSound_address]
  rfl

theorem ofStore_eq (s : ConfigStore) :
    Settings.Layer.ofStore s = do
      let uri ← s.value? Configurable.uri.address
      let key ← s.value? Configurable.key.address
      let realm ← s.value? Configurable.realm.address
      let insecure ← s.value? Configurable.insecure.address
      return ⟨uri, key, realm, insecure⟩ := by
  simp only [← get_address]
  rfl

/-- Look-ups that all succeed make a layer. -/
theorem ofStore_of_ok {value : Configurable → Option String}
    (h : ∀ x : Configurable, s.value? x.address = .ok (value x)) :
    Settings.Layer.ofStore s =
      .ok ⟨value .uri, value .key, value .realm, value .insecure⟩ := by
  rw [ofStore_eq, h, h, h, h]
  rfl

/-- One look-up that fails makes all fail, if there is only one way to fail. -/
theorem ofStore_of_error
    (h : ∀ x : Configurable, s.value? x.address = .error e ∨ ∃ v, s.value? x.address = .ok v)
    {x : Configurable} (hx : s.value? x.address = .error e) :
    Settings.Layer.ofStore s = .error e := by
  rw [ofStore_eq]
  -- the first look-up that fails decides, and the last one does if no other fails
  rcases h .uri with huri | ⟨uri, huri⟩
  · rw [huri]; rfl
  rcases h .key with hkey | ⟨key, hkey⟩
  · rw [huri, hkey]; rfl
  rcases h .realm with hrealm | ⟨realm, hrealm⟩
  · rw [huri, hkey, hrealm]; rfl
  have hinsecure : s.value? Configurable.insecure.address = .error e := by
    cases x with
    | uri => rw [huri] at hx; cases hx
    | key => rw [hkey] at hx; cases hx
    | realm => rw [hrealm] at hx; cases hx
    | insecure => exact hx
  rw [huri, hkey, hrealm, hinsecure]
  rfl

/-- The layer of the store is what the two files tell, unless a file fails that is needed. -/
theorem ofStore_cases (s : ConfigStore) :
    (∃ e, s.Fails e ∧ Settings.Layer.ofStore s = .error e) ∨
      (∀ e, ¬ s.Fails e) ∧ Settings.Layer.ofStore s =
        .ok ⟨Configurable.uri.stored s, Configurable.key.stored s, Configurable.realm.stored s,
          Configurable.insecure.stored s⟩ := by
  cases huser : s.user.failure? with
  | some e =>
    have hall : ∀ x : Configurable, s.value? x.address = .error e :=
      fun x => value?_of_failure huser
    left
    exact ⟨e, .inl huser, ofStore_of_error (fun x => .inl (hall x)) (hall .uri)⟩
  | none =>
    have hvalue := value?_of_readable huser
    by_cases hneeded : ∃ e x, s.system.failure? = some e ∧
        s.user.value? (Configurable.address x) = none
    · obtain ⟨e, x, hsystem, hx⟩ := hneeded
      left
      refine ⟨e, .inr ⟨huser, hsystem, x, hx⟩, ofStore_of_error (x := x) ?_ ?_⟩
      · intro y
        rw [hvalue, hsystem]
        cases s.user.value? y.address with
        | some v => exact .inr ⟨_, rfl⟩
        | none => exact .inl rfl
      · rw [hvalue, hsystem, hx]
    · right
      constructor
      · intro e hfails
        rcases hfails with hfails | ⟨-, hsystem, x, hx⟩
        · rw [huser] at hfails
          cases hfails
        · exact hneeded ⟨e, x, hsystem, hx⟩
      · apply ofStore_of_ok
        intro x
        rw [hvalue]
        split
        · next e hx hsystem => exact absurd ⟨e, x, hsystem, hx⟩ hneeded
        · rfl

end ConfigStore

/-! ## Main theorem -/

/-- There is one way to fail at most. -/
theorem ConfigStore.Fails.unique {s : ConfigStore} {e e' : BusError} (h : s.Fails e)
    (h' : s.Fails e') : e = e' := by
  rcases h with h | ⟨hread, h, -⟩ <;> rcases h' with h' | ⟨hread', h', -⟩
  · exact Option.some.inj (h.symm.trans h')
  · rw [h] at hread'
    cases hread'
  · rw [h'] at hread
    cases hread
  · exact Option.some.inj (h.symm.trans h')

namespace Settings

/-- The defaults, what the files tell over them, and the environment over both. -/
theorem layered_eq (s : ConfigStore) (env : Environment) :
    (default.layered ⟨Configurable.uri.stored s, Configurable.key.stored s,
        Configurable.realm.stored s, Configurable.insecure.stored s⟩).layerEnvironment env =
      { default with
        uri? := Configurable.uri.told s env
        key := Configurable.key.told s env
        realm := (Configurable.realm.told s env).getD default.realm
        insecure := ((Configurable.insecure.told s env).map readFlag).getD default.insecure } := by
  simp only [layerEnvironment, layered, Layer.ofEnvironment, Configurable.told,
    Configurable.envName, Option.map_or, Option.getD_or, default, Option.or_none]

/-- Loading the settings fails with what is wrong with a file that is needed: the user's, or the
system's if the user's does not tell of all four settings.  Otherwise each of them is what is told
first, or the default, and the other settings have their defaults. -/
theorem load_by_layers (s : ConfigStore) (env : Environment) :
    (∀ e, load s env = .error e ↔ s.Fails e) ∧
      ∀ settings, load s env = .ok settings ↔ (∀ e, ¬ s.Fails e) ∧
        settings = { default with
          uri? := Configurable.uri.told s env
          key := Configurable.key.told s env
          realm := (Configurable.realm.told s env).getD default.realm
          insecure :=
            ((Configurable.insecure.told s env).map readFlag).getD default.insecure } := by
  unfold load
  rcases s.ofStore_cases with ⟨e, hfails, hlayer⟩ | ⟨hnone, hlayer⟩
  · rw [hlayer]
    constructor
    · intro e'
      constructor
      · intro h
        cases h
        exact hfails
      · intro hfails'
        rw [hfails.unique hfails']
        rfl
    · intro settings
      constructor
      · intro h
        cases h
      · intro ⟨hnone, _⟩
        exact absurd hfails (hnone e)
  · rw [hlayer, ← layered_eq]
    constructor
    · intro e
      constructor
      · intro h
        cases h
      · intro hfails
        exact absurd hfails (hnone e)
    · intro settings
      constructor
      · intro h
        cases h
        exact ⟨hnone, rfl⟩
      · intro ⟨_, hsettings⟩
        rw [hsettings]
        rfl

-- an empty text of the user hides what the system says
example : (load ⟨.file (utf8 "[bus]\nrealm = \"\"\n"), .file (utf8 "[bus]\nrealm = \"house\"\n")⟩
    fun _ => none).toOption.map (·.realm) = some "" := by
  decide +kernel

end Settings

end MessageBus
