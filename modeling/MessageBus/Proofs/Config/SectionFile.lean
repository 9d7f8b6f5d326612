import MessageBus.Proofs.Config.QuotedText
import MessageBus.Proofs.SortedTable

/-! # Files of sections that are read back

    A file is written section by section, and a section line by line: a header,
    a line for each value, and a blank line before the next header.  The reader
    goes through the same lines and adds each of them to the sections that it
    has.  As names ascend, whatever is added is new and goes to the end.

    * `readLines_entries`, `readLines_section`: the lines of one section.
    * `read_write`: reading a file of sections undoes writing it. -/

namespace MessageBus

namespace Toml

/-! ## One line -/

/-- A name starts with a character that starts neither a header, nor a comment,
    nor an end of line. -/
theorem writeKey_eq_cons (s : String) :
    ∃ c cs, writeKey s = c :: cs ∧ isBlank c = false ∧ c ≠ '\n' ∧ c ≠ '\r' ∧ c ≠ '#' ∧
      c ≠ '[' := by
  rw [writeKey]
  split
  · next h =>
    simp only [Bool.and_eq_true, Bool.not_eq_true', List.all_eq_true,
      List.isEmpty_eq_false_iff] at h
    obtain ⟨hne, hall⟩ := h
    obtain ⟨c, cs, hcs⟩ := List.exists_cons_of_ne_nil hne
    have hc : isBare c = true := hall c (by rw [hcs]; exact List.mem_cons_self ..)
    have hnot : ∀ d, isBare d = false → c ≠ d := by
      rintro d hd rfl
      rw [hd] at hc
      cases hc
    refine ⟨c, cs, hcs, ?_, hnot _ rfl, hnot _ rfl, hnot _ rfl, hnot _ rfl⟩
    have hspace : c ≠ ' ' := hnot _ rfl
    have htab : c ≠ '\t' := hnot _ rfl
    simp [isBlank, hspace, htab]
  · rcases holds_keyForm s.toList with hform | ⟨hform, -⟩
    · rw [hform]
      exact ⟨_, _, rfl, by decide, by decide, by decide, by decide, by decide⟩
    · rw [hform]
      exact ⟨_, _, rfl, by decide, by decide, by decide, by decide, by decide⟩

/-- A text starts with a delimiter. -/
theorem writeText_eq_cons (s : String) :
    ∃ c cs, writeText s = c :: cs ∧ (c = '"' ∨ c = '\'') := by
  rw [writeText]
  cases Form.of s.toList
  · exact ⟨_, _, rfl, .inl rfl⟩
  · exact ⟨_, _, rfl, .inr rfl⟩
  · exact ⟨_, _, rfl, .inl rfl⟩
  · exact ⟨_, _, rfl, .inr rfl⟩

theorem skip_cons {c : Char} (h : isBlank c = false) (cs : List Char) : skip (c :: cs) = c :: cs :=
  List.dropWhile_cons_of_neg (by simp [h])

theorem follows_cons {c : Char} (h₁ : c ≠ '"') (h₂ : c ≠ '\'') (cs : List Char) :
    Follows (c :: cs) := ⟨by simpa using h₁, by simpa using h₂⟩

/-- A name with its text is read up to the end of its line. -/
theorem readEntry_writeEntry (entry : String × String) (rest : List Char) :
    readEntry (writeEntry entry ++ rest) = some (entry, '\n' :: rest) := by
  obtain ⟨name, value⟩ := entry
  have hname : readKey (writeKey name ++ (' ' :: '=' :: ' ' :: (writeText value ++ '\n' :: rest)))
      = some (name, ' ' :: '=' :: ' ' :: (writeText value ++ '\n' :: rest)) := by
    refine readKey_writeKey name (follows_cons (by decide) (by decide) _) ?_
    rintro c hc
    cases hc
    rfl
  have hequals : readEquals (' ' :: '=' :: ' ' :: (writeText value ++ '\n' :: rest))
      = some (writeText value ++ '\n' :: rest) := by
    obtain ⟨c, cs, hcs, hc⟩ := writeText_eq_cons value
    have hblank : isBlank c = false := by
      rcases hc with rfl | rfl
      · rfl
      · rfl
    show some (skip (' ' :: (writeText value ++ '\n' :: rest))) = _
    rw [hcs]
    show some (skip (c :: (cs ++ '\n' :: rest))) = _
    rw [skip_cons hblank]
    rfl
  have htext : readText (writeText value ++ '\n' :: rest) = some (value.toList, '\n' :: rest) :=
    readText_writeText value (follows_cons (by decide) (by decide) _)
  have hline : writeEntry (name, value) ++ rest
      = writeKey name ++ (' ' :: '=' :: ' ' :: (writeText value ++ '\n' :: rest)) := by
    simp [writeEntry]
  rw [hline, readEntry]
  simp only [hname, hequals, htext, Option.bind_eq_bind, Option.bind_some, String.ofList_toList]
  rfl

/-- A header is read up to the end of its line. -/
theorem readHeader_writeKey (d : Document) (name : String) (rest : List Char) :
    readHeader d (writeKey name ++ ']' :: rest) = (d.openSection name).map (·, rest) := by
  obtain ⟨c, cs, hcs, hblank, -⟩ := writeKey_eq_cons name
  have hskip : skip (writeKey name ++ ']' :: rest) = writeKey name ++ ']' :: rest := by
    rw [hcs, List.cons_append, skip_cons hblank]
  have hname : readKey (writeKey name ++ ']' :: rest) = some (name, ']' :: rest) := by
    refine readKey_writeKey name (follows_cons (by decide) (by decide) _) ?_
    rintro c hc
    cases hc
    rfl
  rw [readHeader, hskip]
  simp only [hname, Option.bind_eq_bind, Option.bind_some,
    skip_cons (by decide : isBlank ']' = false)]
  cases d.openSection name <;> rfl

/-- A line with a value goes to the section at hand. -/
theorem readLines_writeEntry {d : Document} {group : String} (hgroup : d.current = some group)
    (entry : String × String) (fuel : Nat) (rest : List Char) :
    readLines (fuel + 1) d (writeEntry entry ++ rest) =
      (d.addValue group entry.1 entry.2).bind fun d => readLines fuel d rest := by
  obtain ⟨c, cs, hcs, hblank, hline, hreturn, hcomment, hheader⟩ := writeKey_eq_cons entry.1
  have hentry := readEntry_writeEntry entry rest
  obtain ⟨tail, htail⟩ : ∃ tail, writeEntry entry ++ rest = c :: tail := by
    simp [writeEntry, hcs]
  rw [htail] at hentry ⊢
  rw [readLines, skip_cons hblank, readExpression]
  · simp only [hgroup, hentry, Option.bind_eq_bind, Option.bind_some]
    cases d.addValue group entry.1 entry.2 <;> rfl
  all_goals simp_all

/-- A header opens its section. -/
theorem readLines_header (d : Document) (name : String) (fuel : Nat) (rest : List Char) :
    readLines (fuel + 1) d ('[' :: (writeKey name ++ ']' :: '\n' :: rest)) =
      (d.openSection name).bind fun d => readLines fuel d rest := by
  have hskip : ∀ cs, skip ('[' :: cs) = '[' :: cs := fun cs => skip_cons (by decide) cs
  rw [readLines, hskip, readExpression, readHeader_writeKey]
  · cases d.openSection name <;> rfl
  · exact nofun

/-- A blank line says nothing. -/
theorem readLines_newline (d : Document) (fuel : Nat) (rest : List Char) :
    readLines (fuel + 1) d ('\n' :: rest) = readLines fuel d rest := rfl

/-! ## One section -/

/-- The values of a section that are left go behind those that were read. -/
theorem readLines_entries {table : Sections} {group : String} (es : Table String) {d : Document}
    {before : Table String} (hgroup : d.current = some group)
    (hd : d.sections = table.insert group before) (hsorted : Table.Sorted (before ++ es))
    (fuel : Nat) (rest : List Char) :
    readLines (es.length + fuel) d (es.flatMap writeEntry ++ rest) =
      readLines fuel { d with sections := table.insert group (before ++ es) } rest := by
  induction es generalizing d before with
  | nil =>
    have hsame : { d with sections := table.insert group (before ++ []) } = d := by
      rw [List.append_nil, ← hd]
    rw [hsame, List.length_nil, Nat.zero_add]
    rfl
  | cons entry es ih =>
    have hlt := hsorted.lt_of_append
    have hadd : d.addValue group entry.1 entry.2
        = some { d with sections := table.insert group (before ++ [entry]) } := by
      have hbefore : d.sections.get? group = some before := by
        rw [hd, Table.get?_insert]
      have hnew : insertNew before entry.1 entry.2 = some (before ++ [entry]) := by
        rw [insertNew, Table.get?_eq_none_of_lt hlt]
        simp only [Table.insert_last entry.2 hlt]
      rw [Document.addValue, hbefore, Option.getD_some, hnew, Option.map_some, hd,
        Table.insert_insert]
    have hsorted' : Table.Sorted ((before ++ [entry]) ++ es) := by
      rwa [List.append_assoc, List.singleton_append]
    have hlength : (entry :: es).length + fuel = (es.length + fuel) + 1 := by
      rw [List.length_cons]
      omega
    have hrest := @ih { d with sections := table.insert group (before ++ [entry]) } _ hgroup rfl
      hsorted'
    rw [hlength, List.flatMap_cons, List.append_assoc, readLines_writeEntry hgroup, hadd,
      Option.bind_some, hrest, List.append_assoc, List.singleton_append]

/-- A section whose name is behind all others goes to the end. -/
theorem readLines_section {d : Document} {group : String × Table String}
    (hlast : ∀ entry ∈ d.sections, entry.1 < group.1) (hsorted : Table.Sorted group.2)
    (fuel : Nat) (rest : List Char) :
    readLines (group.2.length + 1 + fuel) d (writeSection group ++ rest) =
      readLines fuel ⟨d.sections ++ [group], group.1 :: d.complete, some group.1⟩ rest := by
  have hopen : d.openSection group.1
      = some ⟨d.sections.insert group.1 [], group.1 :: d.complete, some group.1⟩ := by
    rw [Document.openSection, insertNew, Table.get?_eq_none_of_lt hlast]
    rfl
  have htext : writeSection group ++ rest =
      '[' :: (writeKey group.1 ++ ']' :: '\n' :: (group.2.flatMap writeEntry ++ rest)) := by
    simp [writeSection]
  have hfuel : group.2.length + 1 + fuel = (group.2.length + fuel) + 1 := by omega
  rw [htext, hfuel, readLines_header, hopen, Option.bind_some,
    readLines_entries group.2 rfl rfl (by simpa using hsorted), List.nil_append,
    Table.insert_last group.2 hlast]

/-! ## A whole file -/

theorem length_entries (es : Table String) : es.length ≤ (es.flatMap writeEntry).length := by
  induction es with
  | nil => exact Nat.le_refl _
  | cons entry es ih =>
    simp only [List.length_cons, List.flatMap_cons, List.length_append, writeEntry]
    omega

theorem length_writeSection (group : String × Table String) :
    group.2.length + 1 ≤ (writeSection group).length := by
  have hentries := length_entries group.2
  simp only [writeSection, List.length_append, List.length_cons]
  omega

/-- A section on each of the lines that follow.  The fuel is enough, as each
    line has a character at least. -/
theorem readLines_sections (more : Sections) {d : Document}
    (hsorted : Table.Sorted (d.sections ++ more)) (hinner : ∀ group ∈ more, Table.Sorted group.2)
    {fuel : Nat} (hfuel : (more.flatMap fun group => '\n' :: writeSection group).length ≤ fuel) :
    (readLines fuel d (more.flatMap fun group => '\n' :: writeSection group)).map (·.sections)
      = some (d.sections ++ more) := by
  induction more generalizing d fuel with
  | nil =>
    rw [List.flatMap_nil, List.append_nil, readLines]
    rfl
  | cons group more ih =>
    simp only [List.flatMap_cons, List.length_append, List.length_cons] at hfuel
    have hlength := length_writeSection group
    obtain ⟨left, rfl⟩ : ∃ left, fuel = (group.2.length + 1 + left) + 1 :=
      ⟨fuel - (group.2.length + 1 + 1), by omega⟩
    have hsorted' : Table.Sorted ((d.sections ++ [group]) ++ more) := by
      rwa [List.append_assoc, List.singleton_append]
    rw [List.flatMap_cons, List.cons_append, readLines_newline,
      readLines_section hsorted.lt_of_append (hinner group (List.mem_cons_self ..)),
      ih hsorted' (fun g hg => hinner g (List.mem_cons_of_mem _ hg)) (by omega)]
    simp

/-- The sections of a file with a blank line before each but the first. -/
theorem chars_cons (group : String × Table String) (more : Sections) :
    chars (group :: more) =
      writeSection group ++ more.flatMap fun group => '\n' :: writeSection group := by
  rw [chars, List.map_cons]
  induction more generalizing group with
  | nil => simp
  | cons next more ih =>
    rw [List.map_cons, List.intercalate_cons_cons, ih, List.flatMap_cons]
    simp

/-- Names ascend, those of the sections and those of the values of each. -/
def IsOrdered (s : Sections) : Prop := Table.Sorted s ∧ ∀ group ∈ s, Table.Sorted group.2

/-- A file that was written is read as the sections that it was written from. -/
theorem read_write {s : Sections} (h : IsOrdered s) : read? (write s) = some s := by
  obtain ⟨hsorted, hinner⟩ := h
  rw [read?, write, String.toList_ofList]
  cases s with
  | nil => rfl
  | cons group more =>
    have hmark : (chars (group :: more)).head? ≠ some byteOrderMark := by
      rw [chars_cons]
      exact (by decide : some '[' ≠ some byteOrderMark)
    simp only [hmark, if_false]
    rw [chars_cons]
    have hlength := length_writeSection group
    obtain ⟨left, hleft⟩ : ∃ left, (writeSection group ++
        more.flatMap fun group => '\n' :: writeSection group).length
          = group.2.length + 1 + left ∧
        (more.flatMap fun group => '\n' :: writeSection group).length ≤ left := by
      rw [List.length_append]
      exact ⟨_, (Nat.add_sub_of_le (by omega)).symm, by omega⟩
    rw [hleft.1, readLines_section (by exact nofun) (hinner group (List.mem_cons_self ..)),
      readLines_sections more (by exact hsorted)
        (fun g hg => hinner g (List.mem_cons_of_mem _ hg)) hleft.2]
    rfl

end Toml

end MessageBus
