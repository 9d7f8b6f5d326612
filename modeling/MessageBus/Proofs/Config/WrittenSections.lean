import MessageBus.Config.Store
import MessageBus.Proofs.Config.SectionFile

/-! # Which sections a file holds

    A document is read line by line, and whatever a line adds is put in its place
    among the names that are there already.  So what comes out is a map of sections
    to maps of names to values, with the names in order, however the document lists
    them.  A document that is written from such a map is read as that map; so the
    sections that a file can hold are these maps, all of them.

    * `isOrdered_of_read`: what is read of any document.
    * `sections_replaced_iff`: what is read of a file that was written. -/

namespace MessageBus

namespace Toml

/-! ## Putting in place -/

section place
variable {α : Type} {table table' : Table α} {name : String} {value : α}

theorem eq_of_insertNew (h : insertNew table name value = some table') :
    table' = table.insert name value := by
  unfold insertNew at h
  split at h
  · exact (Option.some.inj h).symm
  · cases h

theorem sorted_insertNew (hsorted : Table.Sorted table)
    (h : insertNew table name value = some table') : Table.Sorted table' := by
  rw [eq_of_insertNew h]
  exact Table.sorted_insert hsorted name value

end place

namespace IsOrdered

variable {s : Sections}

theorem nil : IsOrdered [] := ⟨Table.sorted_nil, nofun⟩

/-- A section is put in place. -/
theorem insert (h : IsOrdered s) {values : Table String} (hvalues : Table.Sorted values)
    (name : String) : IsOrdered (Table.insert s name values) := by
  refine ⟨Table.sorted_insert h.1 name values, fun group hgroup => ?_⟩
  rcases Table.mem_insert hgroup with rfl | hgroup
  · exact hvalues
  · exact h.2 group hgroup

/-- A section is taken away. -/
theorem erase (h : IsOrdered s) (name : String) : IsOrdered (Table.erase s name) :=
  ⟨Table.sorted_filter h.1 _, fun group hgroup => h.2 group (List.mem_filter.mp hgroup).1⟩

/-- The values of a section that may be absent. -/
theorem values (h : IsOrdered s) (name : String) : Table.Sorted ((s.get? name).getD []) := by
  cases hvalues : s.get? name with
  | none => exact Table.sorted_nil
  | some values => exact h.2 _ (Table.mem_of_get? hvalues)

end IsOrdered

/-! ## One line -/

variable {cs rest : List Char} {d d' : Document}

theorem sorted_readInline {fuel : Nat} {table table' : Table String} (h : Table.Sorted table)
    (hread : readInline fuel table cs = some (table', rest)) : Table.Sorted table' := by
  induction fuel generalizing table cs with
  | zero => cases hread
  | succ fuel ih =>
    simp only [readInline, Option.bind_eq_bind, Option.bind_eq_some_iff, Prod.exists] at hread
    obtain ⟨name, value, _, -, more, hnew, hread⟩ := hread
    have hmore : Table.Sorted more := sorted_insertNew h hnew
    split at hread
    · exact ih hmore hread
    · cases hread
      exact hmore
    · cases hread

theorem sorted_readTable {values : Table String} (hread : readTable cs = some (values, rest)) :
    Table.Sorted values := by
  unfold readTable at hread
  split at hread
  · split at hread
    · cases hread
      exact Table.sorted_nil
    · exact sorted_readInline Table.sorted_nil hread
  · cases hread

theorem isOrdered_openSection {name : String} (h : IsOrdered d.sections)
    (hopen : d.openSection name = some d') : IsOrdered d'.sections := by
  obtain ⟨s, hnew, rfl⟩ := Option.map_eq_some_iff.mp hopen
  rw [eq_of_insertNew hnew]
  exact h.insert Table.sorted_nil name

theorem isOrdered_addTable {name : String} {values : Table String} (h : IsOrdered d.sections)
    (hvalues : Table.Sorted values) (hadd : d.addTable name values = some d') :
    IsOrdered d'.sections := by
  obtain ⟨s, hnew, rfl⟩ := Option.map_eq_some_iff.mp hadd
  rw [eq_of_insertNew hnew]
  exact h.insert hvalues name

theorem isOrdered_addValue {group name value : String} (h : IsOrdered d.sections)
    (hadd : d.addValue group name value = some d') : IsOrdered d'.sections := by
  obtain ⟨values, hnew, rfl⟩ := Option.map_eq_some_iff.mp hadd
  exact h.insert (sorted_insertNew (h.values group) hnew) group

theorem isOrdered_readHeader (h : IsOrdered d.sections)
    (hread : readHeader d cs = some (d', rest)) : IsOrdered d'.sections := by
  simp only [readHeader, Option.bind_eq_bind, Option.bind_eq_some_iff, Prod.exists] at hread
  obtain ⟨name, _, -, hread⟩ := hread
  split at hread
  · obtain ⟨opened, hopen, heq⟩ := Option.bind_eq_some_iff.mp hread
    cases heq
    exact isOrdered_openSection h hopen
  · cases hread

theorem isOrdered_readTopEntry (h : IsOrdered d.sections)
    (hread : readTopEntry d cs = some (d', rest)) : IsOrdered d'.sections := by
  simp only [readTopEntry, Option.bind_eq_bind, Option.bind_eq_some_iff, Prod.exists] at hread
  obtain ⟨first, second, _, -, _, -, hread⟩ := hread
  split at hread
  · split at hread
    · cases hread
    · simp only [Option.bind_eq_some_iff, Prod.exists] at hread
      obtain ⟨value, _, -, added, hadd, heq⟩ := hread
      cases heq
      exact isOrdered_addValue h hadd
  · simp only [Option.bind_eq_some_iff, Prod.exists] at hread
    obtain ⟨values, _, hvalues, added, hadd, heq⟩ := hread
    cases heq
    exact isOrdered_addTable h (sorted_readTable hvalues) hadd

/-- Every line of a document keeps the sections in order. -/
theorem isOrdered_readExpression (h : IsOrdered d.sections)
    (hread : readExpression d cs = some (d', rest)) : IsOrdered d'.sections := by
  unfold readExpression at hread
  split at hread
  -- nothing, an end of line, and a comment say nothing
  iterate 4
    · cases hread
      exact h
  · exact isOrdered_readHeader h hread
  · split at hread
    · simp only [Option.bind_eq_bind, Option.bind_eq_some_iff, Prod.exists] at hread
      obtain ⟨name, value, _, -, added, hadd, heq⟩ := hread
      cases heq
      exact isOrdered_addValue h hadd
    · exact isOrdered_readTopEntry h hread

/-! ## A whole document -/

theorem isOrdered_readLines {fuel : Nat} (h : IsOrdered d.sections)
    (hread : readLines fuel d cs = some d') : IsOrdered d'.sections := by
  induction fuel generalizing d cs with
  | zero =>
    unfold readLines at hread
    split at hread
    · cases hread
      exact h
    · cases hread
    · cases ‹0 = _ + 1›
  | succ fuel ih =>
    unfold readLines at hread
    split at hread
    · cases hread
      exact h
    · cases hread
    · next heq _ =>
      cases heq
      simp only [Option.bind_eq_bind, Option.bind_eq_some_iff, Prod.exists] at hread
      obtain ⟨added, _, hexpression, _, -, hread⟩ := hread
      exact ih (isOrdered_readExpression h hexpression) hread

/-- Whatever a document looks like, what is read of it is a map of sections to maps. -/
theorem isOrdered_of_read {text : String} {s : Sections} (h : read? text = some s) :
    IsOrdered s := by
  obtain ⟨d, hlines, rfl⟩ := Option.map_eq_some_iff.mp h
  exact isOrdered_readLines IsOrdered.nil hlines

end Toml

/-! ## Main theorem -/

namespace FileState

/-- What is at a path after sections were written to it: a file is put in the place of a file, or
where none was, but not in the place of a directory. -/
def replaced (f : FileState) (s : Sections) : BusResult FileState :=
  match f with
  | .directory => .error (.io "Is a directory (os error 21)")
  | .absent | .file _ => .ok (.file (utf8 (Toml.write s)))

/-- What is read of a file is a map of sections to maps. -/
theorem isOrdered_of_sections {f : FileState} {s : Sections} (h : f.sections = .ok s) :
    Toml.IsOrdered s := by
  unfold sections at h
  split at h
  · cases h
    exact Toml.IsOrdered.nil
  · cases h
  · split at h
    · cases h
    · split at h
      · next hread =>
        cases h
        exact Toml.isOrdered_of_read hread
      · cases h

/-- A file that was written from a map of sections to maps is read as that map. -/
theorem sections_write {s : Sections} (h : Toml.IsOrdered s) :
    (file (utf8 (Toml.write s))).sections = .ok s := by
  rw [sections]
  simp only [Bytes.text?_utf8, Toml.read_write h]

/-- Sections that are written to a path are read there again, exactly as they were, just when they
are a map of sections to maps, the names in order and none twice; unless there is a directory.
The names and the values may be any texts, and the sections may be empty. -/
theorem sections_replaced_iff (f : FileState) (s : Sections) :
    (f.replaced s >>= sections) = .ok s ↔ f ≠ .directory ∧ Toml.IsOrdered s := by
  cases f with
  | directory =>
    constructor
    · intro h
      cases h
    · rintro ⟨hplace, -⟩
      exact absurd rfl hplace
  | absent | file content =>
    constructor
    · intro h
      have hread : (file (utf8 (Toml.write s))).sections = .ok s := h
      exact ⟨nofun, isOrdered_of_sections hread⟩
    · rintro ⟨-, hs⟩
      exact sections_write hs

-- the sections of a file are put in order, whatever order they were written in
example : Toml.read? (Toml.write [("b", [("x.y", "\r\n\"")]), ("a", [])]) =
    some [("a", []), ("b", [("x.y", "\r\n\"")])] := by
  decide +kernel

end FileState

end MessageBus
