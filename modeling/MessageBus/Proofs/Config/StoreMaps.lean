import MessageBus.Config.Store
import MessageBus.Text.Bytes
import MessageBus.Proofs.Config.WrittenSections
import Mathlib.Logic.Function.Basic

/-! # The configuration store as two maps

    The two files of the store start out absent and are changed by setting and
    removing settings.  Each change reads the selected file, changes its
    sections, and writes the file anew.  Beside the store we keep, for each
    file, the map from addresses to values that the successful changes amount
    to.

    A file is *well kept* when it lists its sections and their values in order,
    no section is empty, and the address of each of its values is sound: its
    section's name is not empty and has no dot, and its own name is not empty.
    This is what makes an address tell the section and the name it was put
    together from, so that a file contributes to the list of all settings what
    it contributes to single look-ups.

    * `SettingKey.parse_eq_ok_iff`: an address is read as its two parts, and
      nothing but addresses is read.
    * `recorded_move`: what one change does to the store and to the maps.
    * `store_refines_maps`: look-ups, the list of all settings and the files
      after any changes, and what the next change comes to. -/

namespace MessageBus

/-! ## Addresses -/

namespace SettingKey

/-- Neither part is empty, and the first has no dot. -/
structure IsSound (k : SettingKey) : Prop where
  plain : '.' ∉ k.group.toList
  group : k.group ≠ ""
  name : k.name ≠ ""

/-- A text is an address if something stands before its first dot and something after. -/
def IsAddress (text : String) : Prop := ∃ k : SettingKey, k.IsSound ∧ text = k.render

theorem toList_render (k : SettingKey) :
    k.render.toList = k.group.toList ++ '.' :: k.name.toList := by
  simp [render]

theorem toList_ne_nil {s : String} (h : s ≠ "") : s.toList ≠ [] := by
  simpa using h

/-- The address of sound parts is read as these parts. -/
theorem parse_render {k : SettingKey} (h : k.IsSound) : parse k.render = .ok k := by
  have hcut : Text.cutFirst? (· == '.') k.render.toList
      = some (k.group.toList, k.name.toList) := by
    rw [toList_render]
    refine Text.cutFirst?_append ?_ rfl _
    rintro c hc
    have hne : c ≠ '.' := by
      rintro rfl
      exact h.plain hc
    simpa using hne
  obtain ⟨c, group, hgroup⟩ := List.exists_cons_of_ne_nil (toList_ne_nil h.group)
  obtain ⟨d, name, hname⟩ := List.exists_cons_of_ne_nil (toList_ne_nil h.name)
  rw [parse, hcut, hgroup, hname]
  simp only [← hgroup, ← hname, String.ofList_toList]

/-- What is read are the sound parts of an address. -/
theorem sound_of_parse {text : String} {k : SettingKey} (h : parse text = .ok k) :
    k.IsSound ∧ text = k.render := by
  rw [parse] at h
  split at h
  · next c group d name hcut =>
    cases h
    have hplain := Text.not_separator_of_cutFirst? hcut
    obtain ⟨x, hx, htext⟩ := Text.eq_of_cutFirst? hcut
    obtain rfl : x = '.' := by simpa using hx
    refine ⟨⟨?_, by simp, by simp⟩, ?_⟩
    · intro hdot
      simpa using hplain '.' (by simpa using hdot)
    · apply String.toList_injective
      rw [toList_render, htext]
      simp
  · cases h

theorem parse_eq_ok_iff {text : String} {k : SettingKey} :
    parse text = .ok k ↔ k.IsSound ∧ text = k.render := by
  constructor
  · exact sound_of_parse
  · rintro ⟨hk, rfl⟩
    exact parse_render hk

/-- Sound parts are told by their address. -/
theorem render_injective {k l : SettingKey} (hk : k.IsSound) (hl : l.IsSound)
    (h : k.render = l.render) : k = l := by
  have hread := parse_render hk
  rw [h, parse_render hl] at hread
  cases hread
  rfl

/-- What is no address is refused. -/
theorem parse_of_not_isAddress {text : String} (h : ¬ IsAddress text) :
    parse text = .error (.config ("key '" ++ text ++ "' must be of the form section.name")) := by
  cases hread : parse text with
  | ok k => exact absurd ⟨k, sound_of_parse hread⟩ h
  | error e =>
    rw [parse] at hread
    split at hread
    · cases hread
    · exact hread.symm

end SettingKey

/-! ## Sections -/

namespace Sections

variable {s : Sections} {k : SettingKey}

theorem value?_set (s : Sections) (k : SettingKey) (value : String) :
    (s.set k value).value? k = some value := by
  rw [value?, set, Table.get?_insert, Option.bind_some, Table.get?_insert]

/-- Setting a value leaves the others. -/
theorem value?_set_ne (s : Sections) {k l : SettingKey} (h : l ≠ k) (value : String) :
    (s.set k value).value? l = s.value? l := by
  by_cases hgroup : l.group = k.group
  · have hname : l.name ≠ k.name := by
      intro hname
      cases k
      cases l
      cases hgroup
      cases hname
      exact h rfl
    rw [value?, value?, set, hgroup, Table.get?_insert, Option.bind_some,
      Table.get?_insert_ne _ _ hname]
    cases s.get? k.group <;> rfl
  · rw [value?, value?, set, Table.get?_insert_ne _ _ hgroup]

/-- Either there was nothing to remove, or the section is gone with its last value, or it is left
    with the others. -/
theorem unset_cases (s : Sections) (k : SettingKey) :
    (s.get? k.group = none ∧ s.unset k = s) ∨
    (∃ values, s.get? k.group = some values ∧ values.erase k.name = [] ∧
      s.unset k = s.erase k.group) ∨
    (∃ values, s.get? k.group = some values ∧ values.erase k.name ≠ [] ∧
      s.unset k = s.insert k.group (values.erase k.name)) := by
  rw [unset]
  cases hvalues : s.get? k.group with
  | none => exact .inl ⟨rfl, rfl⟩
  | some values =>
    cases hrest : values.erase k.name with
    | nil => exact .inr (.inl ⟨values, rfl, hrest, by simp [hrest]⟩)
    | cons entry rest =>
      refine .inr (.inr ⟨values, rfl, ?_, by simp [hrest]⟩)
      rw [hrest]
      exact List.cons_ne_nil _ _

theorem value?_unset (s : Sections) (k : SettingKey) : (s.unset k).value? k = none := by
  rw [value?]
  rcases unset_cases s k with ⟨hnone, hs⟩ | ⟨values, -, -, hs⟩ | ⟨values, -, -, hs⟩
  · rw [hs, hnone, Option.bind_none]
  · rw [hs, Table.get?_erase, Option.bind_none]
  · rw [hs, Table.get?_insert, Option.bind_some, Table.get?_erase]

/-- Removing a value leaves the others. -/
theorem value?_unset_ne (s : Sections) {k l : SettingKey} (h : l ≠ k) :
    (s.unset k).value? l = s.value? l := by
  have hrest : l.group = k.group → ∀ values : Table String,
      (values.erase k.name).get? l.name = values.get? l.name := by
    intro hgroup values
    refine Table.get?_erase_ne _ fun hname => h ?_
    cases k
    cases l
    cases hgroup
    cases hname
    rfl
  rw [value?, value?]
  rcases unset_cases s k with ⟨-, hs⟩ | ⟨values, hvalues, hnil, hs⟩ | ⟨values, hvalues, -, hs⟩
  · rw [hs]
  · by_cases hgroup : l.group = k.group
    · have hempty := hrest hgroup values
      rw [hnil] at hempty
      rw [hs, hgroup, Table.get?_erase, hvalues, Option.bind_some, ← hempty]
      rfl
    · rw [hs, Table.get?_erase_ne _ hgroup]
  · by_cases hgroup : l.group = k.group
    · rw [hs, hgroup, Table.get?_insert, hvalues, Option.bind_some, Option.bind_some,
        hrest hgroup]
    · rw [hs, Table.get?_insert_ne _ _ hgroup]

/-- Names ascend, no section is empty, and the address of every value is sound. -/
structure IsWellKept (s : Sections) : Prop where
  ordered : Toml.IsOrdered s
  filled : ∀ group ∈ s, group.2 ≠ []
  sound : ∀ group ∈ s, ∀ entry ∈ group.2, SettingKey.IsSound ⟨group.1, entry.1⟩

namespace IsWellKept

theorem nil : IsWellKept [] :=
  ⟨⟨Table.sorted_nil, by simp⟩, by simp, by simp⟩

/-- A section is put in place. -/
theorem insert (h : s.IsWellKept) {name : String} {values : Table String}
    (hsorted : Table.Sorted values) (hfilled : values ≠ [])
    (hsound : ∀ entry ∈ values, SettingKey.IsSound ⟨name, entry.1⟩) :
    IsWellKept (Table.insert s name values) := by
  refine ⟨h.ordered.insert hsorted name, ?_, ?_⟩
  · intro group hgroup
    rcases Table.mem_insert hgroup with rfl | hgroup
    · exact hfilled
    · exact h.filled group hgroup
  · intro group hgroup
    rcases Table.mem_insert hgroup with rfl | hgroup
    · exact hsound
    · exact h.sound group hgroup

/-- A section is taken away. -/
theorem erase (h : s.IsWellKept) (name : String) : IsWellKept (Table.erase s name) where
  ordered := h.ordered.erase name
  filled := fun group hgroup => h.filled group (List.mem_filter.mp hgroup).1
  sound := fun group hgroup => h.sound group (List.mem_filter.mp hgroup).1

/-- The values of a section that may be absent. -/
theorem values (h : s.IsWellKept) (name : String) :
    Table.Sorted ((s.get? name).getD []) ∧
      ∀ entry ∈ (s.get? name).getD [], SettingKey.IsSound ⟨name, entry.1⟩ := by
  refine ⟨h.ordered.values name, ?_⟩
  cases hvalues : s.get? name with
  | none => simp
  | some values => exact h.sound _ (Table.mem_of_get? hvalues)

theorem set (h : s.IsWellKept) (hk : k.IsSound) (value : String) : (s.set k value).IsWellKept := by
  obtain ⟨hsorted, hsound⟩ := h.values k.group
  refine h.insert (Table.sorted_insert hsorted _ _) ?_ ?_
  · intro hnil
    have hfound := Table.get?_insert ((s.get? k.group).getD []) k.name value
    rw [hnil] at hfound
    cases hfound
  · intro entry hentry
    rcases Table.mem_insert hentry with rfl | hentry
    · exact hk
    · exact hsound entry hentry

theorem unset (h : s.IsWellKept) (k : SettingKey) : (s.unset k).IsWellKept := by
  rcases unset_cases s k with ⟨-, hs⟩ | ⟨values, -, -, hs⟩ | ⟨values, hvalues, hfilled, hs⟩
  · rwa [hs]
  · rw [hs]
    exact h.erase _
  · have hmem := Table.mem_of_get? hvalues
    rw [hs]
    refine h.insert (Table.sorted_filter (h.ordered.2 _ hmem) _) hfilled ?_
    exact fun entry hentry => h.sound _ hmem entry (List.mem_filter.mp hentry).1

end IsWellKept

/-! ## Sections and a map -/

/-- A map from texts to values, where there are any. -/
abbrev Contents := String → Option String

/-- The map gives each setting's value to its address, and none to what is no address. -/
structure Shows (s : Sections) (contents : Contents) : Prop where
  value : ∀ k : SettingKey, k.IsSound → contents k.render = s.value? k
  nothing : ∀ text, ¬ SettingKey.IsAddress text → contents text = none

namespace Shows

variable {contents : Contents}

theorem nil : Shows [] fun _ => none := ⟨fun _ _ => rfl, fun _ _ => rfl⟩

/-- Sections whose values are those before but for one setting's. -/
theorem update {s t : Sections} (h : s.Shows contents) (hk : k.IsSound)
    (hothers : ∀ l, l ≠ k → t.value? l = s.value? l) :
    t.Shows (Function.update contents k.render (t.value? k)) where
  value := by
    intro l hl
    by_cases hkl : l = k
    · rw [hkl, Function.update_self]
    · have hne : l.render ≠ k.render :=
        fun hrender => hkl (SettingKey.render_injective hl hk hrender)
      rw [Function.update_of_ne hne, h.value l hl, hothers l hkl]
  nothing := by
    intro text htext
    have hne : text ≠ k.render := by
      rintro rfl
      exact htext ⟨k, hk, rfl⟩
    rw [Function.update_of_ne hne, h.nothing text htext]

/-- What is listed is what the map gives. -/
theorem mem_flat (h : s.Shows contents) (hs : s.IsWellKept) {text value : String} :
    (text, value) ∈ s.flat ↔ contents text = some value := by
  have hflat : (text, value) ∈ s.flat ↔ ∃ group ∈ s, ∃ entry ∈ group.2,
      text = SettingKey.render ⟨group.1, entry.1⟩ ∧ value = entry.2 := by
    simp only [flat, SettingKey.render, List.mem_flatMap, List.mem_map, Prod.mk.injEq]
    constructor
    · rintro ⟨group, hgroup, entry, hentry, rfl, rfl⟩
      exact ⟨group, hgroup, entry, hentry, rfl, rfl⟩
    · rintro ⟨group, hgroup, entry, hentry, rfl, rfl⟩
      exact ⟨group, hgroup, entry, hentry, rfl, rfl⟩
  rw [hflat]
  constructor
  · rintro ⟨⟨group, values⟩, hgroup, ⟨name, value⟩, hentry, rfl, rfl⟩
    rw [h.value _ (hs.sound _ hgroup _ hentry), value?,
      (Table.get?_eq_some_iff hs.ordered.1).mpr hgroup, Option.bind_some,
      (Table.get?_eq_some_iff (hs.ordered.2 _ hgroup)).mpr hentry]
  · intro hvalue
    have haddress : SettingKey.IsAddress text := by
      by_contra hno
      rw [h.nothing text hno] at hvalue
      cases hvalue
    obtain ⟨k, hk, rfl⟩ := haddress
    rw [h.value k hk, value?] at hvalue
    obtain ⟨values, hvalues, hname⟩ := Option.bind_eq_some_iff.mp hvalue
    exact ⟨_, Table.mem_of_get? hvalues, _, Table.mem_of_get? hname, rfl, rfl⟩

/-- The list of the settings, whichever way it is gone through, finds what the map gives. -/
theorem get?_flat (h : s.Shows contents) (hs : s.IsWellKept) (text : String) :
    Table.get? s.flat.reverse text = contents text := by
  have hmem : ∀ value, (text, value) ∈ s.flat.reverse ↔ contents text = some value := fun value =>
    List.mem_reverse.trans (h.mem_flat hs)
  cases hfound : Table.get? s.flat.reverse text with
  | some value => exact ((hmem value).mp (Table.mem_of_get? hfound)).symm
  | none =>
    cases hvalue : contents text with
    | none => rfl
    | some value =>
      obtain ⟨found, hsome⟩ := Table.exists_get?_of_mem ((hmem value).mpr hvalue)
      rw [hfound] at hsome
      cases hsome

end Shows

end Sections

/-! ## Files -/

/-- The sections are what is read from the file, and the file is as they are written if it is there
    at all. -/
structure FileState.Holds (f : FileState) (s : Sections) : Prop where
  read : f.sections = .ok s
  written : f = .absent ∨ f = .file (utf8 (Toml.write s))

theorem FileState.holds_absent : FileState.Holds .absent [] := ⟨rfl, .inl rfl⟩

/-- A file as it was written holds what it was written from. -/
theorem FileState.holds_write {s : Sections} (h : Toml.IsOrdered s) :
    FileState.Holds (.file (utf8 (Toml.write s))) s := ⟨sections_write h, .inr rfl⟩

namespace ConfigStore

theorem file_withFile_self (s : ConfigStore) (scope : ConfigScope) (f : FileState) :
    (s.withFile scope f).file scope = f := by
  cases scope <;> rfl

theorem file_withFile_of_ne (s : ConfigStore) {scope other : ConfigScope} (h : other ≠ scope)
    (f : FileState) : (s.withFile scope f).file other = s.file other := by
  cases scope <;> cases other <;> first | rfl | exact absurd rfl h

/-! ## Changes -/

/-- What is done to a setting. -/
inductive Change where
  | set (value : String)
  | unset

/-- A change to a setting of a file. -/
structure Operation where
  scope : ConfigScope
  key : String
  change : Change

/-- What a change comes to, and the store after it. -/
def Operation.apply (op : Operation) (s : ConfigStore) : BusResult Unit × ConfigStore :=
  match op.change with
  | .set value => s.set op.scope op.key value
  | .unset => s.unset op.scope op.key

/-- The value that a setting is left with. -/
def Change.value? : Change → Option String
  | .set value => some value
  | .unset => none

/-- The sections after a change. -/
def Change.sections (c : Change) (s : Sections) (k : SettingKey) : Sections :=
  match c with
  | .set value => s.set k value
  | .unset => s.unset k

theorem Change.wellKept (c : Change) {s : Sections} (h : s.IsWellKept) {k : SettingKey}
    (hk : k.IsSound) : (c.sections s k).IsWellKept := by
  cases c with
  | set value => exact h.set hk value
  | unset => exact h.unset k

theorem Change.shows (c : Change) {s : Sections} {contents : Sections.Contents}
    (h : s.Shows contents) {k : SettingKey} (hk : k.IsSound) :
    (c.sections s k).Shows (Function.update contents k.render c.value?) := by
  cases c with
  | set value =>
    have hset := h.update hk (t := s.set k value) fun l hl => s.value?_set_ne hl value
    rwa [Sections.value?_set] at hset
  | unset =>
    have hunset := h.update hk (t := s.unset k) fun l hl => s.value?_unset_ne hl
    rwa [Sections.value?_unset] at hunset

/-- A change to what is no address is refused and leaves the store alone. -/
theorem Operation.apply_of_not_isAddress {op : Operation} (h : ¬ SettingKey.IsAddress op.key)
    (s : ConfigStore) :
    op.apply s =
      (.error (.config ("key '" ++ op.key ++ "' must be of the form section.name")), s) := by
  rw [apply]
  cases op.change with
  | set value => simp only [ConfigStore.set, SettingKey.parse_of_not_isAddress h]
  | unset => simp only [ConfigStore.unset, SettingKey.parse_of_not_isAddress h]

/-- A change to an address edits the selected file. -/
theorem Operation.apply_eq_edit {op : Operation} {k : SettingKey} (hk : k.IsSound)
    (hkey : op.key = k.render) (s : ConfigStore) :
    op.apply s = s.edit op.scope (op.change.sections · k) := by
  rw [apply]
  cases op.change with
  | set value => simp only [ConfigStore.set, hkey, SettingKey.parse_render hk, Change.sections]
  | unset => simp only [ConfigStore.unset, hkey, SettingKey.parse_render hk, Change.sections]

/-- A change to a setting of a file that can be read is written to that file. -/
theorem Operation.apply_render {op : Operation} {k : SettingKey} (hk : k.IsSound)
    (hkey : op.key = k.render) {s : ConfigStore} {sections : Sections}
    (hread : (s.file op.scope).sections = .ok sections) :
    op.apply s = (.ok (),
      s.withFile op.scope (.file (utf8 (Toml.write (op.change.sections sections k))))) := by
  rw [apply_eq_edit hk hkey, edit, hread]

/-! ## Changes on record -/

/-- A store beside the maps that the successful changes amount to, one for each file. -/
structure Recorded where
  store : ConfigStore
  contents : ConfigScope → Sections.Contents

namespace Recorded

/-- Two absent files, and nothing set. -/
def start : Recorded := ⟨⟨.absent, .absent⟩, fun _ _ => none⟩

/-- A change is made to the store, and if that succeeds to the map of the selected file as well. -/
def move (r : Recorded) (op : Operation) : Recorded :=
  match op.apply r.store with
  | (.ok (), store) =>
    ⟨store, Function.update r.contents op.scope
      (Function.update (r.contents op.scope) op.key op.change.value?)⟩
  | (.error _, store) => ⟨store, r.contents⟩

/-- The store and the maps after changes one after another. -/
def after (ops : List Operation) : Recorded := ops.foldl move start

/-- Each file holds well-kept sections that its map shows. -/
def Kept (r : Recorded) : Prop :=
  ∀ scope, ∃ sections : Sections, (r.store.file scope).Holds sections ∧ sections.IsWellKept ∧
    sections.Shows (r.contents scope)

theorem kept_start : start.Kept := by
  rintro (_ | _)
  · exact ⟨[], FileState.holds_absent, .nil, .nil⟩
  · exact ⟨[], FileState.holds_absent, .nil, .nil⟩

/-- A change keeps to the maps. -/
theorem kept_move {r : Recorded} (h : r.Kept) (op : Operation) : (r.move op).Kept := by
  by_cases haddress : SettingKey.IsAddress op.key
  · obtain ⟨k, hk, hkey⟩ := haddress
    obtain ⟨sections, hholds, hkept, hshows⟩ := h op.scope
    rw [move, Operation.apply_render hk hkey hholds.read]
    intro scope
    by_cases hscope : scope = op.scope
    · subst hscope
      have hnew := op.change.wellKept hkept hk
      refine ⟨_, ?_, hnew, ?_⟩
      · rw [file_withFile_self]
        exact FileState.holds_write hnew.ordered
      · simp only [Function.update_self, hkey]
        exact op.change.shows hshows hk
    · simp only [file_withFile_of_ne _ hscope, Function.update_of_ne hscope]
      exact h scope
  · rw [move, Operation.apply_of_not_isAddress haddress]
    exact h

theorem kept_after (ops : List Operation) : (after ops).Kept := by
  suffices h : ∀ r : Recorded, r.Kept → (ops.foldl move r).Kept from h start kept_start
  induction ops with
  | nil => exact fun r h => h
  | cons op ops ih => exact fun r h => ih _ (kept_move h op)

/-! ## What the maps tell -/

/-- The store is nothing but its two maps. -/
structure Refines (r : Recorded) : Prop where
  /-- A change to an address succeeds, and any other change is refused and leaves the store. -/
  change : ∀ op : Operation,
    (SettingKey.IsAddress op.key → (op.apply r.store).1 = .ok ()) ∧
    (¬ SettingKey.IsAddress op.key → op.apply r.store =
      (.error (.config ("key '" ++ op.key ++ "' must be of the form section.name")), r.store))
  /-- A look-up prefers the user's map. -/
  get : ∀ key, SettingKey.IsAddress key →
    r.store.get key = .ok ((r.contents .user key).or (r.contents .system key))
  /-- All settings, in the order of their addresses, are the system's overridden by the user's. -/
  all : ∃ table, r.store.all = .ok table ∧ Table.Sorted table ∧
    ∀ key, table.get? key = (r.contents .user key).or (r.contents .system key)
  /-- A change to one file leaves the other. -/
  apart : ∀ op : Operation, ∀ scope, scope ≠ op.scope →
    (op.apply r.store).2.file scope = r.store.file scope
  /-- No file has an empty section. -/
  filled : ∀ scope, ∃ sections, (r.store.file scope).Holds sections ∧
    ∀ group ∈ sections, group.2 ≠ []

namespace Kept

variable {r : Recorded}

theorem get (h : r.Kept) {key : String} (haddress : SettingKey.IsAddress key) :
    r.store.get key = .ok ((r.contents .user key).or (r.contents .system key)) := by
  obtain ⟨k, hk, rfl⟩ := haddress
  obtain ⟨user, huser, -, hupper⟩ := h .user
  obtain ⟨system, hsystem, -, hlower⟩ := h .system
  have huser : r.store.user.sections = .ok user := huser.read
  have hsystem : r.store.system.sections = .ok system := hsystem.read
  have hget : r.store.get k.render = r.store.value? k := by
    rw [ConfigStore.get, SettingKey.parse_render hk]
    rfl
  rw [hget, ConfigStore.value?, huser, hsystem, hupper.value k hk, hlower.value k hk]
  cases hvalue : user.value? k <;> simp [bind, Except.bind, pure, Except.pure, hvalue]

theorem all (h : r.Kept) : ∃ table, r.store.all = .ok table ∧ Table.Sorted table ∧
    ∀ key, table.get? key = (r.contents .user key).or (r.contents .system key) := by
  obtain ⟨user, huser, hupperKept, hupper⟩ := h .user
  obtain ⟨system, hsystem, hlowerKept, hlower⟩ := h .system
  have huser : r.store.user.sections = .ok user := huser.read
  have hsystem : r.store.system.sections = .ok system := hsystem.read
  refine ⟨Table.overlay user.flat (Table.ofList system.flat), ?_,
    Table.sorted_overlay _ (Table.sorted_ofList _), ?_⟩
  · rw [ConfigStore.all, huser, hsystem]
    rfl
  · intro key
    have hsettings : (Table.ofList system.flat).get? key = r.contents .system key := by
      have hlast := Table.get?_overlay system.flat [] key
      rw [hlower.get?_flat hlowerKept] at hlast
      exact hlast.trans (Option.or_none ..)
    rw [Table.get?_overlay, hupper.get?_flat hupperKept, hsettings]

theorem apart (h : r.Kept) (op : Operation) {scope : ConfigScope} (hscope : scope ≠ op.scope) :
    (op.apply r.store).2.file scope = r.store.file scope := by
  by_cases haddress : SettingKey.IsAddress op.key
  · obtain ⟨k, hk, hkey⟩ := haddress
    obtain ⟨sections, hholds, -⟩ := h op.scope
    rw [Operation.apply_render hk hkey hholds.read, file_withFile_of_ne _ hscope]
  · rw [Operation.apply_of_not_isAddress haddress]

end Kept

end Recorded

/-- After any changes, the store is nothing but the two maps that the successful ones amount to. -/
theorem store_refines_maps (ops : List Operation) : (Recorded.after ops).Refines := by
  have hkept := Recorded.kept_after ops
  refine ⟨fun op => ⟨?_, ?_⟩, fun key => hkept.get, hkept.all, fun op scope => hkept.apart op, ?_⟩
  · rintro ⟨k, hk, hkey⟩
    obtain ⟨sections, hholds, -⟩ := hkept op.scope
    rw [Operation.apply_render hk hkey hholds.read]
  · exact fun h => Operation.apply_of_not_isAddress h _
  · intro scope
    obtain ⟨sections, hholds, hsections, -⟩ := hkept scope
    exact ⟨sections, hholds, hsections.filled⟩

end ConfigStore

end MessageBus
