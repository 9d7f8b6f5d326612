import MessageBus.Proofs.Json.NumberText

/-! # Reading what was written

    A value that is written and read again comes back with its numbers replaced
    by what their texts are read as, and the members of its objects put in
    order.  The reader keeps track of open containers in a stack, so the
    induction over the value has to speak of the reader in the middle of a text:
    after the text of a value it is in a state that `Holds` the value, in that
    whatever may follow a value is taken as if the value had been complete.

    * `holds_chars`: the reader after the text of a value.
    * `read_write`: reading a text that was written. -/

namespace MessageBus.Json

open Reader

/-! ## What comes back -/

/-- The value that the text of a number is read as. -/
def Number.reread? (n : Number) : Option Json :=
  if n.hasText then (Number.read? n.chars).map .num else some .null

mutual

/-- The value that the text of a value is read as. -/
def reread? : Json → Option Json
  | .null => some .null
  | .bool b => some (.bool b)
  | .num n => n.reread?
  | .str s => some (.str s)
  | .arr items => (rereadItems? items).map .arr
  | .obj members => (rereadMembers? members).map fun ms => .obj (Table.ofList ms)

/-- The items that the texts of some items are read as. -/
def rereadItems? : List Json → Option (List Json)
  | [] => some []
  | x :: xs => (reread? x).bind fun y => (rereadItems? xs).map (y :: ·)

/-- The members that the texts of some members are read as. -/
def rereadMembers? : List (String × Json) → Option (List (String × Json))
  | [] => some []
  | (n, v) :: ms => (reread? v).bind fun w => (rereadMembers? ms).map ((n, w) :: ·)

end

mutual

/-- How deep the containers of a value nest. -/
def depth : Json → Nat
  | .arr items => itemsDepth items + 1
  | .obj members => membersDepth members + 1
  | _ => 0

/-- How deep the deepest of some items is. -/
def itemsDepth : List Json → Nat
  | [] => 0
  | x :: xs => max (depth x) (itemsDepth xs)

/-- How deep the deepest of some members is. -/
def membersDepth : List (String × Json) → Nat
  | [] => 0
  | (_, v) :: ms => max (depth v) (membersDepth ms)

end

/-! ## Strings -/

theorem run_cons (s : State) (c : Char) (cs : List Char) :
    run s (c :: cs) = (step s c).bind (run · cs) := by
  simp [run, List.foldlM_cons]

theorem run_nil (s : State) : run s [] = some s := rfl

theorem hexDigit_digitChar : ∀ d < 16, hexDigit? (Nat.digitChar d) = some d := by decide

/-- Every character of a string is read as itself. -/
theorem run_escape (stack : List Frame) (isName : Bool) (acc : List Char) (c : Char) :
    run ⟨stack, .string isName acc .none⟩ (escape c)
      = some ⟨stack, .string isName (c :: acc) .none⟩ := by
  -- the characters with a short escape first
  by_cases hq : c = '"'
  · subst hq; rfl
  by_cases hb : c = '\\'
  · subst hb; rfl
  by_cases hn : c = '\n'
  · subst hn; rfl
  by_cases hr : c = '\r'
  · subst hr; rfl
  by_cases ht : c = '\t'
  · subst ht; rfl
  by_cases h8 : c.toNat = 8
  · obtain rfl : c = Char.ofNat 8 := by rw [← h8, Char.ofNat_toNat]
    rfl
  by_cases h12 : c.toNat = 12
  · obtain rfl : c = Char.ofNat 12 := by rw [← h12, Char.ofNat_toNat]
    rfl
  -- other control characters are escaped by number, the rest stands for itself
  simp only [escape, hq, hb, hn, hr, ht, h8, h12, if_false]
  split
  · next h32 =>
    have hhigh := hexDigit_digitChar (c.toNat / 16) (by omega)
    have hlow := hexDigit_digitChar (c.toNat % 16) (by omega)
    have hzero : hexDigit? '0' = some 0 := rfl
    have hvalue : c.toNat / 16 * 16 + c.toNat % 16 = c.toNat := by omega
    have hunit : codeUnit acc c.toNat = some (c :: acc, .none) := by
      simp only [codeUnit]
      rw [if_neg (by omega), if_neg (by omega), Char.ofNat_toNat]
    simp [run_cons, run_nil, step, stringChar, Escape.isNone, hhigh, hlow, hzero, hvalue, hunit]
  · next h32 =>
    simp [run_cons, run_nil, step, stringChar, hq, hb, h32]

theorem run_flatMap_escape (stack : List Frame) (isName : Bool) (cs acc : List Char) :
    run ⟨stack, .string isName acc .none⟩ (cs.flatMap escape)
      = some ⟨stack, .string isName (cs.reverse ++ acc) .none⟩ := by
  induction cs generalizing acc with
  | nil => rfl
  | cons c cs ih =>
    rw [List.flatMap_cons, run_append, run_escape, Option.bind_some, ih]
    simp

/-- A string is read to its closing quote. -/
theorem run_string (stack : List Frame) (isName : Bool) (s : String) :
    run ⟨stack, .string isName [] .none⟩ (s.toList.flatMap escape ++ ['"'])
      = some (endString stack isName s.toList.reverse) := by
  rw [run_append, run_flatMap_escape, Option.bind_some, run_cons]
  simp [step, Escape.isNone, run_nil]

theorem run_quote_value (stack : List Frame) (s : String) :
    run ⟨stack, .value⟩ (quote s) = some ⟨stack, .complete (.str s)⟩ := by
  have hstart : step ⟨stack, .value⟩ '"' = some ⟨stack, .string false [] .none⟩ := rfl
  rw [quote, List.cons_append, run_cons, hstart, Option.bind_some, run_string]
  simp [endString]

/-! ## The reader after a value -/

/-- After the characters of a value the reader may still be in the middle of a
    number or a literal.  It holds `v?` when it goes on, with anything that does
    not belong to a number, as if `v?` had just been completed, and when the
    text may end with `v?`. -/
structure Holds (stack : List Frame) (reader : Option State) (v? : Option Json) : Prop where
  next : ∀ c, isNumeric c = false →
    reader.bind (step · c) = v?.bind fun v => afterValue stack v c
  last : stack = [] → reader.bind State.finish = v?

theorem holds_complete (stack : List Frame) (v : Json) :
    Holds stack (some ⟨stack, .complete v⟩) (some v) := by
  refine ⟨fun _ _ => rfl, ?_⟩
  rintro rfl
  rfl

theorem holds_map (stack : List Frame) (v? : Option Json) :
    Holds stack (v?.map fun v => ⟨stack, .complete v⟩) v? := by
  cases v? with
  | none => exact ⟨fun _ _ => rfl, fun _ => rfl⟩
  | some v => exact holds_complete stack v

theorem holds_literal (stack : List Frame) (v : Json) :
    Holds stack (some ⟨stack, .literal [] v⟩) (some v) := by
  refine ⟨fun _ _ => rfl, ?_⟩
  rintro rfl
  rfl

theorem holds_number (stack : List Frame) (cs : List Char) :
    Holds stack (some ⟨stack, .number cs.reverse⟩) ((Number.read? cs).map .num) := by
  refine ⟨?_, ?_⟩
  · intro c hc
    simp only [Option.bind_some, step, hc, List.reverse_reverse]
    cases Number.read? cs <;> rfl
  · rintro rfl
    simp [State.finish]

theorem holds_num (stack : List Frame) (n : Number) :
    Holds stack (run ⟨stack, .value⟩ n.chars) n.reread? := by
  unfold Number.reread?
  split
  · next h =>
    rw [run_number stack (numeral_chars h)]
    exact holds_number stack n.chars
  · next h =>
    cases n with
    | int i => exact absurd rfl h
    | float x =>
      have hx : x.isFinite = false := by simpa [Number.hasText] using h
      simp only [Number.chars, hx]
      exact holds_literal stack .null

/-- No value starts with a blank or a closing bracket, so the first item of an
    array is read as any other value. -/
theorem head_chars (j : Json) :
    ∃ c rest, j.chars = c :: rest ∧ isSpace c = false ∧ c ≠ ']' := by
  cases j with
  | null => exact ⟨'n', _, rfl, by decide, by decide⟩
  | bool b =>
    cases b
    · exact ⟨'f', _, rfl, by decide, by decide⟩
    · exact ⟨'t', _, rfl, by decide, by decide⟩
  | num n =>
    by_cases h : n.hasText = true
    · obtain ⟨c, rest, hcs, hc⟩ := (numeral_chars h).head
      refine ⟨c, rest, by simpa only [chars] using hcs, ?_, ?_⟩
      · rcases hc with rfl | hc
        · decide
        · rcases Bool.eq_false_or_eq_true (isSpace c) with hs | hs
          · simp only [isSpace, Bool.or_eq_true, beq_iff_eq] at hs
            rcases hs with ((rfl | rfl) | rfl) | rfl <;> cases hc
          · exact hs
      · rintro rfl
        rcases hc with hc | hc <;> cases hc
    · cases n with
      | int i => exact absurd rfl h
      | float x =>
        have hx : x.isFinite = false := by simpa [Number.hasText] using h
        exact ⟨'n', _, by simp only [chars, Number.chars, hx]; rfl, by decide, by decide⟩
  | str s => exact ⟨'"', _, by simp only [chars, quote]; rfl, by decide, by decide⟩
  | arr items => cases items <;> exact ⟨'[', _, by simp only [chars]; rfl, by decide, by decide⟩
  | obj members =>
    cases members <;> exact ⟨'\x7b', _, by simp only [chars]; rfl, by decide, by decide⟩

theorem run_firstItem (stack : List Frame) (j : Json) :
    run ⟨stack, .firstItem⟩ j.chars = run ⟨stack, .value⟩ j.chars := by
  obtain ⟨c, rest, hcs, hspace, hclose⟩ := head_chars j
  rw [hcs, run_cons, run_cons]
  simp [step, hspace, hclose]

/-- A name with its colon. -/
theorem run_name (stack : List Frame) (fields : Fields) (old name : String) {mode : Mode}
    (hmode : mode = .name ∨ mode = .firstName) :
    run ⟨.object fields old :: stack, mode⟩ (quote name ++ [':'])
      = some ⟨.object fields name :: stack, .value⟩ := by
  have hstart : step ⟨.object fields old :: stack, mode⟩ '"'
      = some ⟨.object fields old :: stack, .string true [] .none⟩ := by
    rcases hmode with rfl | rfl <;> rfl
  rw [quote, run_append, List.cons_append, run_cons, hstart, Option.bind_some, run_string,
    Option.bind_some, run_cons]
  simp [endString, step, isSpace, setName, run_nil]

/-! ## Values, items and members -/

/-- The members of an object one after the other. -/
def insertAll (fields : Fields) (members : List (String × Json)) : Fields :=
  members.foldl (fun table entry => table.insert entry.1 entry.2) fields

mutual

/-- The reader after the text of a value. -/
theorem holds_chars (stack : List Frame) (j : Json) (h : stack.length + j.depth ≤ maxDepth) :
    Holds stack (run ⟨stack, .value⟩ j.chars) (reread? j) := by
  match j with
  | .null => exact holds_literal stack .null
  | .bool true => exact holds_literal stack (.bool true)
  | .bool false => exact holds_literal stack (.bool false)
  | .num n => exact holds_num stack n
  | .str s =>
    simp only [chars, run_quote_value, reread?]
    exact holds_complete stack (.str s)
  | .arr [] =>
    simp only [depth] at h
    have hpush : push stack (.array []) .firstItem = some ⟨.array [] :: stack, .firstItem⟩ :=
      if_pos (by omega)
    have hrun : run ⟨stack, .value⟩ (chars (.arr [])) = some ⟨stack, .complete (.arr [])⟩ := by
      have hopen : step ⟨stack, .value⟩ '[' = push stack (.array []) .firstItem := rfl
      rw [chars, run_cons, hopen, hpush]
      rfl
    rw [hrun]
    exact holds_complete stack (.arr [])
  | .arr (x :: xs) =>
    simp only [depth, itemsDepth] at h
    have hpush : push stack (.array []) .firstItem = some ⟨.array [] :: stack, .firstItem⟩ :=
      if_pos (by omega)
    -- the bracket adds a frame, and the items are one level less deep
    have hx := holds_chars (.array [] :: stack) x (by simp only [List.length_cons]; omega)
    have hxs := run_itemChars stack [] xs (by omega) hx
    have hrun : run ⟨stack, .value⟩ (chars (.arr (x :: xs)))
        = (reread? (.arr (x :: xs))).map fun v => ⟨stack, .complete v⟩ := by
      have hopen : step ⟨stack, .value⟩ '[' = push stack (.array []) .firstItem := rfl
      rw [chars, List.cons_append, run_cons, hopen, hpush, Option.bind_some, run_append,
        run_firstItem, hxs, reread?, rereadItems?]
      cases reread? x <;> simp [Option.map_map, Function.comp_def]
    rw [hrun]
    exact holds_map stack _
  | .obj [] =>
    simp only [depth] at h
    have hpush : push stack (.object [] "") .firstName
        = some ⟨.object [] "" :: stack, .firstName⟩ := if_pos (by omega)
    have hrun : run ⟨stack, .value⟩ (chars (.obj [])) = some ⟨stack, .complete (.obj [])⟩ := by
      have hopen : step ⟨stack, .value⟩ '\x7b' = push stack (.object [] "") .firstName := rfl
      rw [chars, run_cons, hopen, hpush]
      rfl
    rw [hrun]
    exact holds_complete stack (.obj [])
  | .obj ((n, v) :: ms) =>
    simp only [depth, membersDepth] at h
    have hpush : push stack (.object [] "") .firstName
        = some ⟨.object [] "" :: stack, .firstName⟩ := if_pos (by omega)
    -- the name of the first member is in the frame when its value is read
    have hv := holds_chars (.object [] n :: stack) v (by simp only [List.length_cons]; omega)
    have hms := run_memberChars stack [] n ms (by omega) hv
    have hrun : run ⟨stack, .value⟩ (chars (.obj ((n, v) :: ms)))
        = (reread? (.obj ((n, v) :: ms))).map fun w => ⟨stack, .complete w⟩ := by
      have hopen : step ⟨stack, .value⟩ '\x7b' = push stack (.object [] "") .firstName := rfl
      have hname := run_name stack [] "" n (.inr rfl)
      have htext : chars (.obj ((n, v) :: ms))
          = '\x7b' :: ((quote n ++ [':']) ++ (chars v ++ memberChars ms)) := by
        simp [chars]
      rw [htext, run_cons, hopen, hpush, Option.bind_some, run_append, hname, Option.bind_some,
        run_append, hms, reread?, rereadMembers?]
      cases reread? v <;> simp [Option.map_map, Function.comp_def, Table.ofList, insertAll]
    rw [hrun]
    exact holds_map stack _

theorem run_itemChars (stack : List Frame) (done : List Json) (xs : List Json)
    {reader : Option State} {first? : Option Json}
    (h : stack.length + 1 + itemsDepth xs ≤ maxDepth)
    (hfirst : Holds (.array done :: stack) reader first?) :
    reader.bind (run · (itemChars xs)) = first?.bind fun x =>
      (rereadItems? xs).map fun ys => ⟨stack, .complete (.arr (done.reverse ++ x :: ys))⟩ := by
  match xs with
  | [] =>
    have hend := hfirst.next ']' (by decide)
    have hrun : ∀ s : State, run s (itemChars []) = step s ']' := by
      intro s
      rw [itemChars, run_cons]
      cases step s ']' <;> rfl
    simp only [hrun, hend, rereadItems?]
    cases first? <;> simp [afterValue, isSpace]
  | y :: ys =>
    simp only [itemsDepth] at h
    have hcomma := hfirst.next ',' (by decide)
    have hrun : ∀ s : State, run s (itemChars (y :: ys))
        = (step s ',').bind fun s => run s (chars y ++ itemChars ys) := by
      intro s
      rw [itemChars, List.cons_append, run_cons]
    -- the comma also ends the item before it, which may be a number
    have hsplit : reader.bind (run · (itemChars (y :: ys)))
        = (reader.bind (step · ',')).bind fun s => run s (chars y ++ itemChars ys) := by
      simp only [hrun, Option.bind_assoc]
    rw [hsplit, hcomma]
    cases first? with
    | none => rfl
    | some x =>
      have hy := holds_chars (.array (x :: done) :: stack) y
        (by simp only [List.length_cons]; omega)
      have hys := run_itemChars stack (x :: done) ys (by omega) hy
      have hnext : afterValue (.array done :: stack) x ','
          = some ⟨.array (x :: done) :: stack, .value⟩ := rfl
      rw [Option.bind_some, hnext, Option.bind_some, run_append, hys, Option.bind_some,
        rereadItems?]
      cases reread? y <;> simp [Option.map_map, Function.comp_def]

theorem run_memberChars (stack : List Frame) (fields : Fields) (name : String)
    (ms : List (String × Json)) {reader : Option State} {first? : Option Json}
    (h : stack.length + 1 + membersDepth ms ≤ maxDepth)
    (hfirst : Holds (.object fields name :: stack) reader first?) :
    reader.bind (run · (memberChars ms)) = first?.bind fun v =>
      (rereadMembers? ms).map fun ws =>
        ⟨stack, .complete (.obj (insertAll (fields.insert name v) ws))⟩ := by
  match ms with
  | [] =>
    have hend := hfirst.next '\x7d' (by decide)
    have hrun : ∀ s : State, run s (memberChars []) = step s '\x7d' := by
      intro s
      rw [memberChars, run_cons]
      cases step s '\x7d' <;> rfl
    simp only [hrun, hend, rereadMembers?]
    cases first? <;> simp [afterValue, isSpace, insertAll]
  | (n, w) :: ms =>
    simp only [membersDepth] at h
    have hcomma := hfirst.next ',' (by decide)
    have hrun : ∀ s : State, run s (memberChars ((n, w) :: ms))
        = (step s ',').bind fun s => run s (quote n ++ [':'] ++ (chars w ++ memberChars ms)) := by
      intro s
      rw [← run_cons]
      simp [memberChars]
    have hsplit : reader.bind (run · (memberChars ((n, w) :: ms)))
        = (reader.bind (step · ',')).bind fun s =>
          run s (quote n ++ [':'] ++ (chars w ++ memberChars ms)) := by
      simp only [hrun, Option.bind_assoc]
    rw [hsplit, hcomma]
    cases first? with
    | none => rfl
    | some v =>
      have hw := holds_chars (.object (fields.insert name v) n :: stack) w
        (by simp only [List.length_cons]; omega)
      have hms := run_memberChars stack (fields.insert name v) n ms (by omega) hw
      -- the member is inserted when the comma comes, not when its value ends
      have hnext : afterValue (.object fields name :: stack) v ','
          = some ⟨.object (fields.insert name v) "" :: stack, .name⟩ := rfl
      have hname := run_name stack (fields.insert name v) "" n (.inl rfl)
      rw [Option.bind_some, hnext, Option.bind_some, run_append, hname, Option.bind_some,
        run_append, hms, Option.bind_some, rereadMembers?]
      cases reread? w <;> simp [Option.map_map, Function.comp_def, insertAll]

end

/-! ## Whole texts -/

/-- The text of a value is read as what comes back of the value. -/
theorem read_write (j : Json) (h : j.depth ≤ maxDepth) : read? j.write = reread? j := by
  have hrun := holds_chars [] j (by simpa using h)
  simpa [read?, write, State.start] using hrun.last rfl

/-- The text of an object is read as what comes back of its members. -/
theorem readObject_write (fields : Fields) (h : membersDepth fields < maxDepth) :
    readObject? fields.write = (rereadMembers? fields).map Table.ofList := by
  have hdepth : (obj fields).depth ≤ maxDepth := by
    simp only [depth]
    omega
  rw [readObject?, Fields.write, read_write _ hdepth, reread?]
  cases rereadMembers? fields <;> rfl

end MessageBus.Json
