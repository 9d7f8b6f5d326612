import MessageBus.CommandLine.Execute
import MessageBus.Proofs.Config.StoreMaps

/-! # Changes that fail leave the files alone

    A change reads the selected file as a whole, changes the sections, and writes the
    file as a whole.  All that can go wrong goes wrong before the writing: the key is
    no address, or what is at the path cannot be read.  So a file that was not
    readable is there afterwards as it was, byte for byte, and the writing finds a
    path that takes it.

    * `edit_eq`: the order in which a change reads and writes.
    * `effect_apply`: what a change comes to, whatever is at the two paths.
    * `files_after_operation`: the files after any operation on the store. -/

namespace MessageBus

/-! ## Files that cannot be read -/

/-- Why what is at a path cannot be read. -/
inductive FileState.Unreadable : FileState → BusError → Prop where
  | directory : Unreadable .directory (.io "Is a directory (os error 21)")
  | undecodable {content : Bytes} :
      Bytes.text? content = none →
      Unreadable (.file content) (.io "stream did not contain valid UTF-8")
  | unparsable {content : Bytes} {text : String} :
      Bytes.text? content = some text → Toml.read? text = none →
      Unreadable (.file content) (.configParse "no table of tables of texts")

theorem FileState.sections_eq_error_iff {f : FileState} {e : BusError} :
    f.sections = .error e ↔ f.Unreadable e := by
  constructor
  · intro h
    unfold sections at h
    split at h
    · cases h
    · cases h
      exact .directory
    · split at h
      · next htext =>
        cases h
        exact .undecodable htext
      · next htext =>
        split at h
        · cases h
        · next hread =>
          cases h
          exact .unparsable htext hread
  · intro h
    cases h with
    | directory => rfl
    | undecodable htext => simp only [sections, htext]
    | unparsable htext hread => simp only [sections, htext, hread]

/-- What can be read can be written to. -/
theorem FileState.replaced_of_read {f : FileState} {read : Sections} (h : f.sections = .ok read)
    (s : Sections) : f.replaced s = .ok (.file (utf8 (Toml.write s))) := by
  cases f with
  | absent | file => rfl
  | directory => cases h

/-! ## Sections stay in order -/

theorem Toml.IsOrdered.set {s : Sections} (h : IsOrdered s) (k : SettingKey) (value : String) :
    IsOrdered (s.set k value) :=
  h.insert (Table.sorted_insert (h.values k.group) k.name value) k.group

theorem Toml.IsOrdered.unset {s : Sections} (h : IsOrdered s) (k : SettingKey) :
    IsOrdered (s.unset k) := by
  rcases Sections.unset_cases s k with ⟨-, hs⟩ | ⟨values, -, -, hs⟩ | ⟨values, hvalues, -, hs⟩
  · rwa [hs]
  · rw [hs]
    exact h.erase k.group
  · rw [hs]
    exact h.insert (Table.sorted_filter (h.2 _ (Table.mem_of_get? hvalues)) _) k.group

namespace ConfigStore

theorem Change.ordered (c : Change) {s : Sections} (h : Toml.IsOrdered s) (k : SettingKey) :
    Toml.IsOrdered (c.sections s k) := by
  cases c with
  | set value => exact h.set k value
  | unset => exact h.unset k

/-! ## One change -/

/-- A change reads what is at the path, changes it, and writes it there; nothing is written unless
all of that succeeds. -/
theorem edit_eq (s : ConfigStore) (scope : ConfigScope) (change : Sections → Sections) :
    s.edit scope change =
      match (s.file scope).sections >>= fun read => (s.file scope).replaced (change read) with
      | .ok written => (.ok (), s.withFile scope written)
      | .error e => (.error e, s) := by
  unfold edit
  cases s.file scope with
  | absent => rfl
  | directory => rfl
  | file content =>
    cases (FileState.file content).sections with
    | ok read => rfl
    | error e => rfl

/-- Why a change fails. -/
inductive Operation.Fails (op : Operation) (s : ConfigStore) : BusError → Prop where
  | key :
      ¬ SettingKey.IsAddress op.key →
      Fails op s (.config ("key '" ++ op.key ++ "' must be of the form section.name"))
  | file {e : BusError} :
      SettingKey.IsAddress op.key → (s.file op.scope).Unreadable e → Fails op s e

/-- What a change comes to: it fails, and both files are as they were, or what is read of the
selected file is what was read before with the one setting changed. -/
inductive Operation.Effect (op : Operation) (s : ConfigStore) :
    BusResult Unit × ConfigStore → Prop where
  | failed {e : BusError} : op.Fails s e → Effect op s (.error e, s)
  | changed {k : SettingKey} {read : Sections} {written : FileState} :
      k.IsSound → op.key = k.render → (s.file op.scope).sections = .ok read →
      written.sections = .ok (op.change.sections read k) →
      Effect op s (.ok (), s.withFile op.scope written)

theorem effect_apply (op : Operation) (s : ConfigStore) : op.Effect s (op.apply s) := by
  by_cases haddress : SettingKey.IsAddress op.key
  · obtain ⟨k, hk, hkey⟩ := haddress
    rw [Operation.apply_eq_edit hk hkey, edit_eq]
    cases hread : (s.file op.scope).sections with
    | error e => exact .failed (.file ⟨k, hk, hkey⟩ (FileState.sections_eq_error_iff.mp hread))
    | ok read =>
      -- what can be read is no directory, so the writing cannot fail any more
      simp only [bind, Except.bind, FileState.replaced_of_read hread]
      have hordered := FileState.isOrdered_of_sections hread
      exact .changed hk hkey hread (FileState.sections_write (op.change.ordered hordered k))
  · rw [Operation.apply_of_not_isAddress haddress]
    exact .failed (.key haddress)

namespace Operation

variable {op : Operation} {s s' : ConfigStore} {r : BusResult Unit} {e : BusError}

/-- There is one way at most in which a change fails. -/
theorem Fails.unique {e' : BusError} (h : op.Fails s e) (h' : op.Fails s e') : e = e' := by
  cases h with
  | key hno =>
    cases h' with
    | key => rfl
    | file haddress => exact absurd haddress hno
  | file haddress hfile =>
    cases h' with
    | key hno => exact absurd haddress hno
    | file _ hfile' =>
      have hread := FileState.sections_eq_error_iff.mpr hfile
      rw [FileState.sections_eq_error_iff.mpr hfile'] at hread
      cases hread
      rfl

/-- A change succeeds only where none of the reasons to fail holds. -/
theorem not_fails_of_read {k : SettingKey} {read : Sections} (hk : k.IsSound)
    (hkey : op.key = k.render) (hread : (s.file op.scope).sections = .ok read) :
    ¬ op.Fails s e := by
  intro hfails
  cases hfails with
  | key hno => exact hno ⟨k, hk, hkey⟩
  | file _ hfile =>
    rw [FileState.sections_eq_error_iff.mpr hfile] at hread
    cases hread

theorem Effect.error_iff (h : op.Effect s (r, s')) : r = .error e ↔ op.Fails s e := by
  cases h with
  | failed hfails =>
    constructor
    · intro heq
      cases heq
      exact hfails
    · intro hfails'
      rw [hfails.unique hfails']
  | changed hk hkey hread =>
    constructor
    · intro heq
      cases heq
    · intro hfails
      exact absurd hfails (not_fails_of_read hk hkey hread)

theorem Effect.store_of_error (h : op.Effect s (.error e, s')) : s' = s := by
  cases h
  rfl

theorem Effect.file_of_ne (h : op.Effect s (r, s')) {scope : ConfigScope} (hne : scope ≠ op.scope) :
    s'.file scope = s.file scope := by
  cases h with
  | failed => rfl
  | changed => exact file_withFile_of_ne s hne _

/-- After a change that succeeds the selected file tells what it told before but for the one
setting. -/
theorem Effect.read_of_ok (h : op.Effect s (.ok (), s')) :
    ∃ (k : SettingKey) (read : Sections), k.IsSound ∧ op.key = k.render ∧
      (s.file op.scope).sections = .ok read ∧
      (s'.file op.scope).sections = .ok (op.change.sections read k) := by
  cases h with
  | changed hk hkey hread hwritten =>
    refine ⟨_, _, hk, hkey, hread, ?_⟩
    rw [file_withFile_self]
    exact hwritten

end Operation

/-! ## Main theorem -/

open CommandLine (ConfigAction configure)

/-- The change that an operation on the store makes, unless it only looks something up. -/
def change? : ConfigAction → Option Operation
  | .set scope key value => some ⟨scope, key, .set value⟩
  | .unset scope key => some ⟨scope, key, .unset⟩
  | .get _ | .list => none

/-- How an operation on the store ends, and the two files afterwards. -/
def outcome (s : ConfigStore) : ConfigAction → BusResult Unit × ConfigStore
  | .get key => ((s.get key).map fun _ => (), s)
  | .set scope key value => s.set scope key value
  | .unset scope key => s.unset scope key
  | .list => (s.all.map fun _ => (), s)

theorem outcome_of_look_up {a : ConfigAction} (h : change? a = none) (s : ConfigStore) :
    (s.outcome a).2 = s := by
  cases a with
  | get key => rfl
  | list => rfl
  | set scope key value => cases h
  | unset scope key => cases h

theorem outcome_of_change {a : ConfigAction} {op : Operation} (h : change? a = some op)
    (s : ConfigStore) : s.outcome a = op.apply s := by
  cases a with
  | get key => cases h
  | list => cases h
  | set scope key value =>
    cases h
    rfl
  | unset scope key =>
    cases h
    rfl

/-- The command for an operation leaves the files as the operation does. -/
theorem store_configure (h : CommandLine.Host) (a : ConfigAction) :
    (configure h a).store = (h.store.outcome a).2 := by
  have hchanged : ∀ op : Operation,
      (configure.changed h (op.apply h.store)).store = (op.apply h.store).2 := by
    intro op
    obtain ⟨r, s', happly⟩ : ∃ r s', op.apply h.store = (r, s') := ⟨_, _, rfl⟩
    have heffect := effect_apply op h.store
    rw [happly] at heffect ⊢
    cases r with
    | ok => rfl
    | error e => exact heffect.store_of_error.symm
  cases a with
  | get key =>
    simp only [configure]
    split <;> rfl
  | set scope key value => exact hchanged ⟨scope, key, .set value⟩
  | unset scope key => exact hchanged ⟨scope, key, .unset⟩
  | list =>
    simp only [configure]
    split <;> rfl

/-- Whatever is at the two paths, and whatever the operation on the store is: a look-up changes
nothing; a change leaves the file that is not selected; it fails just when its key is no address,
or a directory is at the path, or a file that is no text or no table of tables of texts; then it
leaves both files as they were; and otherwise the selected file tells afterwards what it told
before, but for the one setting.  The command for the operation leaves the same files. -/
theorem files_after_operation (s : ConfigStore) (a : ConfigAction) :
    (change? a = none → (s.outcome a).2 = s) ∧
    (∀ op, change? a = some op →
      (∀ scope, scope ≠ op.scope → (s.outcome a).2.file scope = s.file scope) ∧
      (∀ e, (s.outcome a).1 = .error e ↔ op.Fails s e) ∧
      (∀ e, (s.outcome a).1 = .error e → (s.outcome a).2 = s) ∧
      ((s.outcome a).1 = .ok () → ∃ (k : SettingKey) (read : Sections),
        k.IsSound ∧ op.key = k.render ∧ (s.file op.scope).sections = .ok read ∧
        ((s.outcome a).2.file op.scope).sections = .ok (op.change.sections read k))) ∧
    ∀ h : CommandLine.Host, h.store = s → (configure h a).store = (s.outcome a).2 := by
  refine ⟨fun hnone => outcome_of_look_up hnone s, ?_, ?_⟩
  · intro op hop
    rw [outcome_of_change hop]
    obtain ⟨r, s', happly⟩ : ∃ r s', op.apply s = (r, s') := ⟨_, _, rfl⟩
    have heffect := effect_apply op s
    rw [happly] at heffect ⊢
    refine ⟨fun scope hne => heffect.file_of_ne hne, fun e => heffect.error_iff, ?_, ?_⟩
    · rintro e rfl
      exact heffect.store_of_error
    · rintro rfl
      exact heffect.read_of_ok
  · rintro h rfl
    exact store_configure h a

-- what is no table of tables of texts stays as it is
example : ((⟨.file (utf8 "[bus]\nkey = 1\n"), .absent⟩ : ConfigStore).set .user "bus.key" "").2 =
    ⟨.file (utf8 "[bus]\nkey = 1\n"), .absent⟩ := by
  decide +kernel

end ConfigStore

end MessageBus
