import MessageBus.Proofs.Json.Rereading
import MessageBus.Proofs.Text.Trimming

/-! # Blanks in JSON text

    Of the many blanks of Unicode, JSON text has four outside of its strings, its
    spaces, and no line break inside of them.  So a text that can be read at all
    may have its line breaks replaced by other spaces, and all blanks at either
    end taken away, and is read as the same value: a blank at an end is outside
    of every string, and is therefore a space.

    * `Reader.step_blank`: what a blank does to the reader.
    * `run_map`: other spaces in place of line breaks.
    * `read_trimChars`: no blanks at either end.
    * `newline_notMem_chars`, `trimChars_obj`: a written text has no line breaks,
      and that of an object no blanks at its ends. -/

namespace MessageBus.Json

open Reader

namespace Reader

variable {s s' : State} {c : Char} {cs : List Char} {v : Json} {stack : List Frame}

/-! ## One blank -/

theorem not_isDigit_of_isBlank (h : Text.isBlank c = true) : c.isDigit = false := by
  by_contra hdigit
  have hdigit : c.isDigit = true := by simpa using hdigit
  simp only [Char.isDigit, Bool.and_eq_true, decide_eq_true_eq] at hdigit
  obtain ⟨hlow, hhigh⟩ := hdigit
  have hlow : 48 ≤ c.toNat := hlow
  have hhigh : c.toNat ≤ 57 := hhigh
  simp only [Text.isBlank, Bool.or_eq_true, Bool.and_eq_true, decide_eq_true_eq, beq_iff_eq] at h
  omega

/-- No blank is missing of a literal. -/
def State.Spelled (s : State) : Prop :=
  match s.mode with
  | .literal missing _ => ∀ c ∈ missing, Text.isBlank c = false
  | _ => True

/-- The reader is inside of a string. -/
def State.InString (s : State) : Prop :=
  match s.mode with
  | .string .. => True
  | _ => False

theorem State.InString.finish (h : s.InString) : s.finish = none := by
  obtain ⟨stack, mode⟩ := s
  cases mode with
  | string isName chars escape => cases stack <;> rfl
  | _ => exact h.elim

theorem isBlank_of_isSpace (h : isSpace c = true) : Text.isBlank c = true := by
  simp only [isSpace, Bool.or_eq_true, beq_iff_eq] at h
  rcases h with ((rfl | rfl) | rfl) | rfl <;> decide

theorem ne_of_isBlank {d : Char} (hblank : Text.isBlank c = true) (h : Text.isBlank d = false) :
    c ≠ d := by
  rintro rfl
  rw [hblank] at h
  cases h

theorem not_isBlank_of_all {ds : List Char} (h : ds.all (fun d => !Text.isBlank d) = true) :
    ∀ d ∈ ds, Text.isBlank d = false := by
  simpa using h

theorem not_isNumeric_of_isBlank (h : Text.isBlank c = true) : isNumeric c = false := by
  have hne : ∀ d ∈ ['-', '+', '.', 'e', 'E'], c ≠ d :=
    fun d hd => ne_of_isBlank h (not_isBlank_of_all (by decide) d hd)
  simp only [List.forall_mem_cons] at hne
  obtain ⟨hminus, hplus, hpoint, he, hE, -⟩ := hne
  simp [isNumeric, not_isDigit_of_isBlank h, hminus, hplus, hpoint, he, hE]

/-- No value starts with a blank. -/
theorem startValue_blank (hblank : Text.isBlank c = true) (h : startValue stack c = some s') :
    isSpace c = true ∧ s' = ⟨stack, .value⟩ := by
  have hne : ∀ d ∈ ['[', '\x7b', '"', 't', 'f', 'n', '-'], c ≠ d :=
    fun d hd => ne_of_isBlank hblank (not_isBlank_of_all (by decide) d hd)
  simp only [List.forall_mem_cons] at hne
  obtain ⟨hbracket, hbrace, hquote, ht, hf, hn, hminus, -⟩ := hne
  unfold startValue at h
  by_cases hspace : isSpace c = true
  · rw [if_pos hspace] at h
    exact ⟨hspace, (Option.some.inj h).symm⟩
  · rw [if_neg hspace, if_neg hbracket, if_neg hbrace, if_neg hquote, if_neg ht, if_neg hf,
      if_neg hn] at h
    simp [hminus, not_isDigit_of_isBlank hblank] at h

/-- A blank ends neither a container nor an item. -/
theorem afterValue_blank (hblank : Text.isBlank c = true) (h : afterValue stack v c = some s') :
    isSpace c = true ∧ s' = ⟨stack, .complete v⟩ := by
  unfold afterValue at h
  split at h
  · next hspace => exact ⟨hspace, (Option.some.inj h).symm⟩
  · split at h
    · cases h
    · rw [if_neg (ne_of_isBlank hblank (by decide)), if_neg (ne_of_isBlank hblank (by decide))] at h
      cases h
    · rw [if_neg (ne_of_isBlank hblank (by decide)), if_neg (ne_of_isBlank hblank (by decide))] at h
      cases h

theorem afterValue_space (h : isSpace c = true) :
    afterValue stack v c = some ⟨stack, .complete v⟩ := by
  rw [afterValue.eq_def, if_pos h]

/-- No line break stands in a string. -/
theorem stringChar_newline (chars : List Char) (escape : Escape) :
    stringChar chars escape '\n' = none := by
  cases escape <;> rfl

/-- Where the reader skips spaces, and takes no other blank, a blank changes nothing. -/
theorem step_waiting {other : Char → Option State}
    (hstep : ∀ d, step s d = if isSpace d = true then some s else other d)
    (hother : isSpace c = false → other c = none) (h : step s c = some s') :
    isSpace c = true ∧ s'.finish = s.finish ∧ ∀ d, isSpace d = true → step s d = some s' := by
  rw [hstep] at h
  split at h
  · next hspace =>
    obtain rfl := Option.some.inj h
    refine ⟨hspace, rfl, fun d hd => ?_⟩
    rw [hstep, if_pos hd]
  · next hspace =>
    rw [hother (by simpa using hspace)] at h
    cases h

/-- What a blank does to the reader: inside of a string it is a character like any
    other, unless it is a line break; elsewhere it has to be a space, and any
    other space, or the end of the text, would have done as well. -/
theorem step_blank (hs : s.Spelled) (hblank : Text.isBlank c = true) (h : step s c = some s') :
    (s.InString ∧ s'.InString ∧ c ≠ '\n') ∨
      (isSpace c = true ∧ s'.finish = s.finish ∧ ∀ d, isSpace d = true → step s d = some s') := by
  obtain ⟨stack, mode⟩ := s
  cases mode with
  | value =>
    obtain ⟨hspace, rfl⟩ := startValue_blank hblank h
    refine .inr ⟨hspace, rfl, fun d hd => ?_⟩
    show startValue stack d = some _
    rw [startValue, if_pos hd]
  | firstItem =>
    refine .inr (step_waiting (fun d => rfl) (fun hspace => ?_) h)
    rw [if_neg (ne_of_isBlank hblank (by decide)), Option.eq_none_iff_forall_ne_some]
    intro s' h
    rw [(startValue_blank hblank h).1] at hspace
    cases hspace
  | firstName =>
    refine .inr (step_waiting (fun d => rfl) (fun _ => ?_) h)
    rw [if_neg (ne_of_isBlank hblank (by decide)), if_neg (ne_of_isBlank hblank (by decide))]
  | name =>
    refine .inr (step_waiting (fun d => rfl) (fun _ => ?_) h)
    rw [if_neg (ne_of_isBlank hblank (by decide))]
  | colon name =>
    refine .inr (step_waiting (fun d => rfl) (fun _ => ?_) h)
    rw [if_neg (ne_of_isBlank hblank (by decide))]
  | complete v =>
    obtain ⟨hspace, rfl⟩ := afterValue_blank hblank h
    exact .inr ⟨hspace, rfl, fun d hd => afterValue_space hd⟩
  | string isName chars escape =>
    simp only [step] at h
    rw [if_neg fun hquote => ne_of_isBlank hblank (by decide) hquote.1] at h
    obtain ⟨⟨chars', escape'⟩, hchar, rfl⟩ := Option.map_eq_some_iff.mp h
    refine .inl ⟨trivial, trivial, ?_⟩
    rintro rfl
    rw [stringChar_newline] at hchar
    cases hchar
  | number chars =>
    simp only [step] at h
    rw [if_neg (by simp [not_isNumeric_of_isBlank hblank])] at h
    obtain ⟨n, hn, h⟩ := Option.bind_eq_some_iff.mp h
    obtain ⟨hspace, rfl⟩ := afterValue_blank hblank h
    refine .inr ⟨hspace, ?_, fun d hd => ?_⟩
    · cases stack with
      | nil => simp [State.finish, hn]
      | cons frame rest => rfl
    · simp only [step]
      rw [if_neg (by simp [not_isNumeric_of_isBlank (isBlank_of_isSpace hd)]), hn]
      exact afterValue_space hd
  | literal missing v =>
    cases missing with
    | nil =>
      obtain ⟨hspace, rfl⟩ := afterValue_blank hblank h
      refine .inr ⟨hspace, ?_, fun d hd => afterValue_space hd⟩
      cases stack <;> rfl
    | cons m rest =>
      have hm : Text.isBlank m = false := hs m (List.mem_cons_self ..)
      simp only [step] at h
      rw [if_neg (ne_of_isBlank hblank hm)] at h
      cases h

/-! ## No blank is missing -/

theorem spelled_startValue (h : startValue stack c = some s') : s'.Spelled := by
  unfold startValue push at h
  repeat' split at h
  all_goals cases h
  all_goals simp only [State.Spelled]
  all_goals exact not_isBlank_of_all (by decide)

theorem spelled_afterValue (h : afterValue stack v c = some s') : s'.Spelled := by
  unfold afterValue at h
  repeat' split at h
  all_goals cases h
  all_goals trivial

theorem State.Spelled.step (hs : s.Spelled) (h : Reader.step s c = some s') : s'.Spelled := by
  obtain ⟨stack, mode⟩ := s
  cases mode with
  | value => exact spelled_startValue h
  | complete v => exact spelled_afterValue h
  | firstItem =>
    simp only [Reader.step] at h
    split at h
    · cases h
      trivial
    · split at h
      · cases h
        trivial
      · exact spelled_startValue h
  | firstName =>
    simp only [Reader.step] at h
    repeat' split at h
    all_goals cases h
    all_goals trivial
  | name =>
    simp only [Reader.step] at h
    repeat' split at h
    all_goals cases h
    all_goals trivial
  | colon name =>
    simp only [Reader.step] at h
    split at h
    · cases h
      trivial
    · split at h
      · obtain ⟨stack', -, rfl⟩ := Option.map_eq_some_iff.mp h
        trivial
      · cases h
  | string isName chars escape =>
    simp only [Reader.step] at h
    split at h
    · cases h
      unfold endString
      split <;> trivial
    · obtain ⟨next, -, rfl⟩ := Option.map_eq_some_iff.mp h
      trivial
  | number chars =>
    simp only [Reader.step] at h
    split at h
    · cases h
      trivial
    · obtain ⟨n, -, h⟩ := Option.bind_eq_some_iff.mp h
      exact spelled_afterValue h
  | literal missing v =>
    cases missing with
    | nil => exact spelled_afterValue h
    | cons m rest =>
      simp only [Reader.step] at h
      split at h
      · cases h
        exact fun c hc => hs c (List.mem_cons_of_mem _ hc)
      · cases h

theorem State.Spelled.run (hs : s.Spelled) (h : Reader.run s cs = some s') : s'.Spelled := by
  induction cs generalizing s with
  | nil =>
    obtain rfl := Option.some.inj h
    exact hs
  | cons c cs ih =>
    rw [run_cons] at h
    obtain ⟨next, hstep, h⟩ := Option.bind_eq_some_iff.mp h
    exact ih (hs.step hstep) h

/-! ## Whole texts -/

/-- Other spaces in place of line breaks. -/
theorem run_map {f : Char → Char} (hf : ∀ c, f c = c ∨ (c = '\n' ∧ isSpace (f c) = true))
    (hs : s.Spelled) (h : run s cs = some s') : run s (cs.map f) = some s' := by
  induction cs generalizing s with
  | nil => exact h
  | cons c cs ih =>
    rw [run_cons] at h
    obtain ⟨next, hstep, h⟩ := Option.bind_eq_some_iff.mp h
    have hnext : step s (f c) = some next := by
      rcases hf c with hsame | ⟨rfl, hspace⟩
      · rw [hsame, hstep]
      · rcases step_blank hs (by decide) hstep with ⟨-, -, hne⟩ | ⟨-, -, hany⟩
        · exact absurd rfl hne
        · exact hany _ hspace
    rw [List.map_cons, run_cons, hnext]
    exact ih (hs.step hstep) h

/-- Blanks in front leave the reader where it starts. -/
theorem run_dropWhile (h : run .start cs = some s) :
    run .start (cs.dropWhile Text.isBlank) = some s := by
  induction cs with
  | nil => exact h
  | cons c cs ih =>
    rw [List.dropWhile_cons]
    split
    · next hblank =>
      rw [run_cons] at h
      obtain ⟨next, hstep, h⟩ := Option.bind_eq_some_iff.mp h
      obtain ⟨-, rfl⟩ := startValue_blank hblank hstep
      exact ih h
    · exact h

/-- The text may end before any blanks that it ends in: no text ends inside of a
    string. -/
theorem finish_rdropWhile (hs : s.Spelled) (h : (run s cs).bind State.finish = some v) :
    (run s (cs.rdropWhile Text.isBlank)).bind State.finish = some v := by
  induction cs using List.reverseRecOn with
  | nil => exact h
  | append_singleton cs c ih =>
    by_cases hblank : Text.isBlank c = true
    · rw [List.rdropWhile_concat_pos _ _ _ hblank]
      refine ih ?_
      obtain ⟨last, hrun, hfinish⟩ := Option.bind_eq_some_iff.mp h
      rw [run_append] at hrun
      obtain ⟨before, hbefore, hrun⟩ := Option.bind_eq_some_iff.mp hrun
      rw [run_cons] at hrun
      obtain ⟨after, hstep, hlast⟩ := Option.bind_eq_some_iff.mp hrun
      obtain rfl := Option.some.inj hlast
      rw [hbefore, Option.bind_some, ← hfinish]
      rcases step_blank (hs.run hbefore) hblank hstep with ⟨-, hstring, -⟩ | ⟨-, hsame, -⟩
      · rw [hstring.finish] at hfinish
        cases hfinish
      · exact hsame.symm
    · rwa [List.rdropWhile_concat_neg _ _ _ hblank]

end Reader

theorem read_map {f : Char → Char} {text : String} {v : Json}
    (hf : ∀ c, f c = c ∨ (c = '\n' ∧ isSpace (f c) = true)) (h : read? text = some v) :
    read? (String.ofList (text.toList.map f)) = some v := by
  obtain ⟨last, hrun, hfinish⟩ := Option.bind_eq_some_iff.mp h
  rw [read?, String.toList_ofList, run_map (s := .start) hf trivial hrun]
  exact hfinish

theorem read_trimChars {cs : List Char} {v : Json} (h : read? (String.ofList cs) = some v) :
    read? (String.ofList (Text.trimChars cs)) = some v := by
  rw [read?, String.toList_ofList] at h ⊢
  obtain ⟨last, hrun, hfinish⟩ := Option.bind_eq_some_iff.mp h
  refine finish_rdropWhile (s := .start) trivial ?_
  rw [run_dropWhile hrun]
  exact hfinish

/-! ## Written texts -/

theorem newline_notMem_escape (c : Char) : '\n' ∉ escape c := by
  have hdigit : ∀ d < 16, '\n' ≠ Nat.digitChar d := by decide
  unfold escape
  by_cases hquote : c = '"'
  · rw [if_pos hquote]
    decide
  rw [if_neg hquote]
  by_cases hbackslash : c = '\\'
  · rw [if_pos hbackslash]
    decide
  rw [if_neg hbackslash]
  by_cases hnewline : c = '\n'
  · rw [if_pos hnewline]
    decide
  rw [if_neg hnewline]
  -- a line break is the only character that had to be escaped
  repeat' split
  · decide
  · decide
  · decide
  · decide
  · next h32 =>
    have hhigh := hdigit (c.toNat / 16) (by omega)
    have hlow := hdigit (c.toNat % 16) (by omega)
    simp [hhigh, hlow]
  · exact fun h => hnewline (List.mem_singleton.mp h).symm

theorem newline_notMem_quote (s : String) : '\n' ∉ quote s := by
  intro h
  simp only [quote, List.cons_append, List.mem_cons, List.mem_append, List.mem_flatMap,
    List.not_mem_nil, or_false] at h
  rcases h with h | ⟨c, -, hc⟩ | h
  · cases h
  · exact newline_notMem_escape c hc
  · cases h

theorem newline_notMem_number (n : Number) : '\n' ∉ n.chars := by
  intro hmem
  by_cases h : n.hasText = true
  · have hnumeric := (numeral_chars h).numeric _ hmem
    revert hnumeric
    decide
  · cases n with
    | int i => exact h rfl
    | float x =>
      have hx : x.isFinite = false := by simpa [Number.hasText] using h
      simp [Number.chars, hx] at hmem

mutual

/-- A written text is a single line. -/
theorem newline_notMem_chars (j : Json) : '\n' ∉ j.chars := by
  match j with
  | .null => decide
  | .bool true => decide
  | .bool false => decide
  | .num n =>
    rw [chars]
    exact newline_notMem_number n
  | .str s =>
    rw [chars]
    exact newline_notMem_quote s
  | .arr [] => decide
  | .arr (x :: xs) =>
    have hx := newline_notMem_chars x
    have hxs := newline_notMem_itemChars xs
    simp [chars, hx, hxs]
  | .obj [] => decide
  | .obj ((n, v) :: ms) =>
    have hn := newline_notMem_quote n
    have hv := newline_notMem_chars v
    have hms := newline_notMem_memberChars ms
    simp [chars, hn, hv, hms]

theorem newline_notMem_itemChars (xs : List Json) : '\n' ∉ itemChars xs := by
  match xs with
  | [] => decide
  | x :: xs =>
    have hx := newline_notMem_chars x
    have hxs := newline_notMem_itemChars xs
    simp [itemChars, hx, hxs]

theorem newline_notMem_memberChars (ms : List (String × Json)) : '\n' ∉ memberChars ms := by
  match ms with
  | [] => decide
  | (n, v) :: ms =>
    have hn := newline_notMem_quote n
    have hv := newline_notMem_chars v
    have hms := newline_notMem_memberChars ms
    simp [memberChars, hn, hv, hms]

end

/-- The last member is followed by the brace that closes the object. -/
theorem getLast_memberChars (ms : List (String × Json)) :
    ∃ front, memberChars ms = front ++ ['\x7d'] := by
  induction ms with
  | nil => exact ⟨[], rfl⟩
  | cons first ms ih =>
    obtain ⟨n, v⟩ := first
    obtain ⟨front, hfront⟩ := ih
    exact ⟨',' :: quote n ++ ':' :: chars v ++ front, by simp [memberChars, hfront]⟩

/-- The text of an object stands between braces. -/
theorem exists_braces (members : Fields) :
    ∃ inside, (obj members).chars = '\x7b' :: (inside ++ ['\x7d']) := by
  match members with
  | [] => exact ⟨[], rfl⟩
  | (n, v) :: ms =>
    obtain ⟨front, hfront⟩ := getLast_memberChars ms
    exact ⟨quote n ++ ':' :: chars v ++ front, by simp [chars, hfront]⟩

/-- The text of an object has no blanks at its ends. -/
theorem trimChars_obj (members : Fields) :
    Text.trimChars (obj members).chars = (obj members).chars := by
  obtain ⟨inside, hchars⟩ := exists_braces members
  rw [hchars]
  refine Text.trimChars_eq_self (fun _ => ?_) (fun h => ?_)
  · rw [List.getElem_cons_zero]
    decide
  · rw [List.getLast_cons (by simp), List.getLast_concat]
    decide

end MessageBus.Json
