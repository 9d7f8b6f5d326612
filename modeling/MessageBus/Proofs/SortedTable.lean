import MessageBus.Table

/-! # Sorted tables

    A table is sorted when its names ascend.  Insertion keeps a table sorted,
    building a sorted table anew changes nothing, and a look-up in it finds
    exactly its entries.

    * `sorted_insert`, `sorted_overlay`, `ofList_eq`: how sorted tables come about.
    * `get?_eq_some_iff`, `get?_overlay`: what is found in them.
    * `eq_of_get?`: sorted tables are told apart by look-ups. -/

namespace MessageBus.Table

variable {α : Type}

/-- The names ascend. -/
def Sorted (table : Table α) : Prop := table.Pairwise fun a b => a.1 < b.1

theorem mem_insert {table : Table α} {name : String} {value : α} {entry : String × α}
    (h : entry ∈ table.insert name value) : entry = (name, value) ∨ entry ∈ table := by
  induction table with
  | nil => exact .inl (List.mem_singleton.mp h)
  | cons first rest ih =>
    obtain ⟨n, v⟩ := first
    simp only [insert] at h
    split at h
    · exact List.mem_cons.mp h
    · split at h
      · rcases List.mem_cons.mp h with h | h
        · exact .inl h
        · exact .inr (List.mem_cons_of_mem _ h)
      · rcases List.mem_cons.mp h with rfl | h
        · exact .inr (List.mem_cons_self ..)
        · rcases ih h with h | h
          · exact .inl h
          · exact .inr (List.mem_cons_of_mem _ h)

theorem mem_insert_of_ne {table : Table α} {name : String} (value : α) {entry : String × α}
    (h : entry ∈ table) (hne : entry.1 ≠ name) : entry ∈ table.insert name value := by
  induction table with
  | nil => cases h
  | cons first rest ih =>
    obtain ⟨n, v⟩ := first
    simp only [insert]
    split
    · exact List.mem_cons_of_mem _ h
    · split
      · next heq =>
        rcases List.mem_cons.mp h with rfl | h
        · exact absurd heq.symm hne
        · exact List.mem_cons_of_mem _ h
      · rcases List.mem_cons.mp h with rfl | h
        · exact List.mem_cons_self ..
        · exact List.mem_cons_of_mem _ (ih h)

/-- Setting a name again is setting it once. -/
theorem insert_insert (table : Table α) (name : String) (first second : α) :
    (table.insert name first).insert name second = table.insert name second := by
  induction table with
  | nil => simp [insert]
  | cons entry rest ih =>
    obtain ⟨n, v⟩ := entry
    by_cases hlt : name < n
    · simp [insert, hlt]
    · by_cases heq : name = n
      · subst heq
        simp [insert]
      · simp [insert, hlt, heq, ih]

theorem sorted_nil : Sorted ([] : Table α) := List.Pairwise.nil

theorem sorted_insert {table : Table α} (h : Sorted table) (name : String) (value : α) :
    Sorted (table.insert name value) := by
  induction table with
  | nil => exact List.pairwise_singleton _ _
  | cons first rest ih =>
    obtain ⟨n, v⟩ := first
    obtain ⟨hfirst, hrest⟩ := List.pairwise_cons.mp h
    simp only [insert]
    split
    · next hlt =>
      refine List.pairwise_cons.mpr ⟨?_, h⟩
      intro entry he
      rcases List.mem_cons.mp he with rfl | he
      · exact hlt
      · exact String.lt_trans hlt (hfirst entry he)
    · next hlt =>
      split
      · next heq =>
        subst heq
        exact List.pairwise_cons.mpr ⟨hfirst, hrest⟩
      · next hne =>
        refine List.pairwise_cons.mpr ⟨?_, ih hrest⟩
        intro entry he
        rcases mem_insert he with rfl | he
        -- neither less nor equal, so the name belongs behind this one
        · rcases String.le_total name n with hle | hle
          · exact absurd (String.le_antisymm hle (String.not_lt.mp hlt)) hne
          · rcases Decidable.em (n < name) with hgt | hgt
            · exact hgt
            · exact absurd (String.le_antisymm (String.not_lt.mp hgt) hle) hne
        · exact hfirst entry he

/-- A name behind all others is put at the end. -/
theorem insert_last {table : Table α} {name : String} (value : α)
    (h : ∀ entry ∈ table, entry.1 < name) : table.insert name value = table ++ [(name, value)] := by
  induction table with
  | nil => rfl
  | cons first rest ih =>
    obtain ⟨n, v⟩ := first
    have hn : n < name := h (n, v) (List.mem_cons_self ..)
    have hne : name ≠ n := by
      rintro rfl
      exact String.lt_irrefl _ hn
    simp only [insert, String.lt_asymm hn, hne, if_false]
    rw [ih fun entry he => h entry (List.mem_cons_of_mem _ he), List.cons_append]

theorem foldl_insert_of_sorted (front rest : Table α) (h : Sorted (front ++ rest)) :
    rest.foldl (fun table entry => table.insert entry.1 entry.2) front = front ++ rest := by
  induction rest generalizing front with
  | nil => simp
  | cons entry rest ih =>
    -- each entry goes behind those that are in the table already
    have hlast : front.insert entry.1 entry.2 = front ++ [entry] := by
      refine insert_last entry.2 ?_
      intro e he
      exact (List.pairwise_append.mp h).2.2 e he entry (List.mem_cons_self ..)
    rw [List.foldl_cons, hlast, ih]
    · simp
    · simpa using h

/-- The entries of a sorted table make the same table again. -/
theorem ofList_eq {table : Table α} (h : Sorted table) : ofList table = table :=
  foldl_insert_of_sorted [] table h

/-- Any entries laid over a sorted table make a sorted table. -/
theorem sorted_overlay (upper : List (String × α)) {lower : Table α} (h : Sorted lower) :
    Sorted (overlay upper lower) := by
  induction upper generalizing lower with
  | nil => exact h
  | cons entry upper ih => exact ih (sorted_insert h entry.1 entry.2)

/-- Any entries make a sorted table. -/
theorem sorted_ofList (entries : List (String × α)) : Sorted (ofList entries) :=
  sorted_overlay entries sorted_nil

/-- What lies above is found first; of entries with one name the last counts. -/
theorem get?_overlay (upper : List (String × α)) (lower : Table α) (name : String) :
    (overlay upper lower).get? name = (get? upper.reverse name).or (lower.get? name) := by
  induction upper generalizing lower with
  | nil => rfl
  | cons entry upper ih =>
    have hstep : overlay (entry :: upper) lower
        = overlay upper (lower.insert entry.1 entry.2) := rfl
    have hlast : get? (upper.reverse ++ [entry]) name
        = (get? upper.reverse name).or (get? [entry] name) := List.lookup_append
    rw [hstep, ih, List.reverse_cons, hlast, Option.or_assoc]
    by_cases hname : name = entry.1
    · rw [hname, get?_insert, get?_cons, if_pos rfl, Option.some_or]
    · rw [get?_insert_ne _ _ hname, get?_cons, if_neg hname]
      rfl

/-- What a look-up finds is an entry. -/
theorem mem_of_get? {entries : List (String × α)} {name : String} {value : α}
    (h : get? entries name = some value) : (name, value) ∈ entries := by
  induction entries with
  | nil => cases h
  | cons entry rest ih =>
    rw [get?_cons] at h
    split at h
    · next hname =>
      cases h
      rw [hname]
      exact List.mem_cons_self ..
    · exact List.mem_cons_of_mem _ (ih h)

/-- A look-up finds a value if there is any for the name. -/
theorem exists_get?_of_mem {entries : List (String × α)} {name : String} {value : α}
    (h : (name, value) ∈ entries) : ∃ found, get? entries name = some found := by
  induction entries with
  | nil => cases h
  | cons entry rest ih =>
    rw [get?_cons]
    split
    · exact ⟨_, rfl⟩
    · next hname =>
      rcases List.mem_cons.mp h with rfl | h
      · exact absurd rfl hname
      · exact ih h

/-- A look-up finds exactly the entries. -/
theorem get?_eq_some_iff {table : Table α} (h : Sorted table) {name : String} {value : α} :
    table.get? name = some value ↔ (name, value) ∈ table := by
  induction table with
  | nil => simp [get?]
  | cons first rest ih =>
    obtain ⟨n, v⟩ := first
    obtain ⟨hfirst, hrest⟩ := List.pairwise_cons.mp h
    rw [get?_cons, List.mem_cons, Prod.mk.injEq]
    by_cases hname : name = n
    · subst hname
      have habsent : (name, value) ∉ rest := fun hmem =>
        String.lt_irrefl name (hfirst (name, value) hmem)
      simp only [if_true, Option.some.injEq, habsent, or_false, true_and]
      exact eq_comm
    · simp only [hname, if_false, false_and, false_or]
      exact ih hrest

/-- A name behind all others is not there. -/
theorem get?_eq_none_of_lt {table : Table α} {name : String}
    (h : ∀ entry ∈ table, entry.1 < name) : table.get? name = none := by
  induction table with
  | nil => rfl
  | cons entry rest ih =>
    have hne : name ≠ entry.1 := by
      rintro rfl
      exact String.lt_irrefl _ (h entry (List.mem_cons_self ..))
    rw [get?_cons, if_neg hne]
    exact ih fun e he => h e (List.mem_cons_of_mem _ he)

/-- In a sorted table the names before an entry are less. -/
theorem Sorted.lt_of_append {front rest : Table α} {entry : String × α}
    (h : Sorted (front ++ entry :: rest)) : ∀ e ∈ front, e.1 < entry.1 := fun e he =>
  (List.pairwise_append.mp h).2.2 e he entry (List.mem_cons_self ..)

theorem nodup_names {table : Table α} (h : Sorted table) : (table.map Prod.fst).Nodup := by
  refine List.pairwise_map.mpr (h.imp fun {a b} hlt heq => ?_)
  rw [heq] at hlt
  exact String.lt_irrefl _ hlt

theorem sorted_filter {table : Table α} (h : Sorted table) (p : String × α → Bool) :
    Sorted (table.filter p) := List.Pairwise.filter p h

/-- Of the entries that are kept a look-up sees what it saw before. -/
theorem get?_filter (table : Table α) (p : String → Bool) (name : String) :
    get? (table.filter fun entry => p entry.1) name
      = if p name then table.get? name else none := by
  induction table with
  | nil => simp [get?]
  | cons entry rest ih =>
    by_cases hname : name = entry.1
    · subst hname
      by_cases hp : p entry.1 = true
      · simp [hp, get?_cons]
      · simpa [hp] using ih
    · by_cases hp : p entry.1 = true <;> simp [hp, get?_cons, hname, ih]

/-- Sorted tables in which look-ups find the same are the same. -/
theorem eq_of_get? {table table' : Table α} (h : Sorted table) (h' : Sorted table')
    (heq : ∀ name, table.get? name = table'.get? name) : table = table' := by
  have hne : ∀ {a b : String × α}, a.1 < b.1 → a ≠ b := by
    intro a b hlt hab
    rw [hab] at hlt
    exact String.lt_irrefl _ hlt
  have hperm : table.Perm table' := by
    apply (List.perm_ext_iff_of_nodup (h.imp hne) (h'.imp hne)).mpr
    intro entry
    rw [← get?_eq_some_iff h, ← get?_eq_some_iff h', heq]
  -- a permutation of what is sorted without ties is no other list
  refine hperm.eq_of_pairwise ?_ h h'
  intro a b _ _ hab hba
  exact absurd (String.lt_trans hab hba) (String.lt_irrefl a.1)

end MessageBus.Table
