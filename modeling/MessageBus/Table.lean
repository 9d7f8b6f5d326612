/-!
# Tables

A table gives a value to each of some names and holds its entries in ascending order of the names.
The order of strings is that of their characters, which is also the order of their UTF-8 bytes.

## Main statements

* `get?_insert`, `get?_insert_ne` : what a look-up sees after an insertion.
* `get?_erase`, `get?_erase_ne` : what it sees after a removal.
-/

namespace MessageBus

/-- Names with values, in ascending order of the names. -/
abbrev Table (α : Type) := List (String × α)

namespace Table

variable {α : Type}

/-- The value of a name. -/
def get? (table : Table α) (name : String) : Option α :=
  table.lookup name

/-- The table with a name set, at its place in the order; an earlier value is replaced. -/
def insert (table : Table α) (name : String) (value : α) : Table α :=
  match table with
  | [] => [(name, value)]
  | (n, v) :: rest =>
    if name < n then (name, value) :: (n, v) :: rest
    else if name = n then (name, value) :: rest
    else (n, v) :: insert rest name value

/-- The table without a name. -/
def erase (table : Table α) (name : String) : Table α :=
  table.filter fun entry => entry.1 != name

/-- A table from entries in any order; of entries with one name the last counts. -/
def ofList (entries : List (String × α)) : Table α :=
  entries.foldl (fun table entry => table.insert entry.1 entry.2) []

/-- The entries of a table laid over those of another. -/
def overlay (upper lower : Table α) : Table α :=
  upper.foldl (fun table entry => table.insert entry.1 entry.2) lower

theorem get?_cons (name : String) (entry : String × α) (rest : Table α) :
    get? (entry :: rest) name = if name = entry.1 then some entry.2 else get? rest name := by
  obtain ⟨n, v⟩ := entry
  by_cases h : name = n
  · simp [get?, h]
  · have : (name == n) = false := by simpa using h
    simp [get?, List.lookup_cons, h, this]

theorem get?_insert (table : Table α) (name : String) (value : α) :
    (table.insert name value).get? name = some value := by
  induction table with
  | nil => simp [insert, get?_cons]
  | cons m rest ih =>
    obtain ⟨n, v⟩ := m
    by_cases h : name < n
    · simp [insert, h, get?_cons]
    · by_cases e : name = n
      · simp [insert, e, get?_cons]
      · simp [insert, h, e, get?_cons, ih]

theorem get?_insert_ne (table : Table α) {name other : String} (value : α) (h : other ≠ name) :
    (table.insert name value).get? other = table.get? other := by
  induction table with
  | nil => simp [insert, get?_cons, h]
  | cons m rest ih =>
    obtain ⟨n, v⟩ := m
    by_cases h₁ : name < n
    · simp [insert, h₁, get?_cons, h]
    · by_cases e : name = n
      · simp [insert, e, get?_cons, e ▸ h]
      · simp [insert, h₁, e, get?_cons, ih]

theorem get?_erase (table : Table α) (name : String) : (table.erase name).get? name = none := by
  induction table with
  | nil => rfl
  | cons m rest ih =>
    by_cases h : m.1 = name
    · simpa [erase, h] using ih
    · have h' : ¬ name = m.1 := fun e => h e.symm
      simp only [erase] at ih
      simp [erase, h, get?_cons, h', ih]

theorem get?_erase_ne (table : Table α) {name other : String} (h : other ≠ name) :
    (table.erase name).get? other = table.get? other := by
  induction table with
  | nil => rfl
  | cons m rest ih =>
    simp only [erase] at ih
    by_cases e : m.1 = name
    · simp [erase, e, get?_cons, ih, h]
    · simp [erase, e, get?_cons, ih]

end Table

end MessageBus
