import MessageBus.Config.Toml.Reader

/-! # Texts and names that are read back

    A text is written in one of five forms and a name in one of four.  Each form
    has its own reader, and the delimiters say which one to use.  Between quotes
    a text may hold quotes itself, up to two in a row on several lines, so the
    reader counts the quotes that just stood: `escaped` and `basicRest` go
    through a text with the same count.

    What follows a text in a document is never a delimiter.  Without that the
    closing delimiter could not be told from what it closes.

    * `basicRest_escaped`: a text with escapes, on one line or on several.
    * `readText_writeText`, `readKey_writeKey`: a text and a name in their forms. -/

namespace MessageBus.Toml

/-! ## Characters -/

/-- What may follow a text or a name: no delimiter. -/
def Follows (rest : List Char) : Prop := rest.head? ≠ some '"' ∧ rest.head? ≠ some '\''

theorem isPlain_of_not_control {c : Char} (hcontrol : isControl c = false) (hbreak : c ≠ '\n') :
    isPlain c = true := by
  by_cases htab : c = '\t'
  · subst htab
    rfl
  · simp_all [isControl, isPlain]

theorem hexValue_hexDigit {n : Nat} (h : n < 16) : Bytes.hexValue? (hexDigit n) = some n := by
  have hall : ∀ k ∈ List.range 16, Bytes.hexValue? (hexDigit k) = some k := by decide
  exact hall n (List.mem_range.mpr h)

theorem scalar_toNat (c : Char) : scalar? c.toNat = some c := by
  have hvalid : c.toNat.isValidChar := c.valid
  rw [scalar?, if_pos hvalid, Char.ofNat_toNat]

/-! ## Texts with escapes -/

/-- How many quotes in a row stand as they are. -/
def room (multi : Bool) : Nat := if multi then 2 else 0

/-- Outside of any escape is the same as after no quotes. -/
theorem basicRest_plain (multi : Bool) (cs : List Char) :
    basicRest multi .plain cs = basicRest multi (.quotes 0) cs := by
  cases cs with
  | nil => cases multi <;> rfl
  | cons c cs =>
    have hplain : closed? multi .plain = none := rfl
    have hquotes : closed? multi (.quotes 0) = none := by cases multi <;> rfl
    have hstep : step multi .plain c = step multi (.quotes 0) c := by
      simp only [step, List.replicate_zero, List.nil_append]
      split
      · rfl
      · cases plainStep multi c <;> rfl
    simp only [basicRest, hplain, hquotes, hstep]

variable {multi : Bool} {n : Nat} {c : Char} {rest : List Char}

theorem closed_of_lt (h : n < closing multi) : closed? multi (.quotes n) = none :=
  if_neg (Nat.not_le_of_lt h)

theorem closed_of_le (h : closing multi ≤ n) :
    closed? multi (.quotes n) = some (List.replicate (n - closing multi) '"') := if_pos h

/-- The next character of a text that the quotes so far do not close. -/
theorem basicRest_of_open {place : Place} (h : closed? multi place = none) (c : Char)
    (cs : List Char) :
    basicRest multi place (c :: cs) =
      (step multi place c).bind fun (added, place) =>
        (basicRest multi place cs).map fun (text, rest) => (added ++ text, rest) := by
  rw [basicRest, h]

/-- A quote that does not close the text yet. -/
theorem basicRest_quote (h : n < closing multi) (cs : List Char) :
    basicRest multi (.quotes n) ('"' :: cs) = basicRest multi (.quotes (n + 1)) cs := by
  rw [basicRest_of_open (closed_of_lt h)]
  simp only [step, if_true, Option.bind_some, List.nil_append]
  cases basicRest multi (.quotes (n + 1)) cs <;> rfl

/-- A quote after those that would close the text already. -/
theorem basicRest_quote_more (h : closing multi ≤ n) (hmost : n < mostQuotes multi)
    (cs : List Char) :
    basicRest multi (.quotes n) ('"' :: cs) = basicRest multi (.quotes (n + 1)) cs := by
  have hne : (Place.quotes n) ≠ .quotes (mostQuotes multi) := by
    intro he
    exact absurd (Place.quotes.inj he) (Nat.ne_of_lt hmost)
  rw [basicRest, closed_of_le h]
  simp only [hne, ne_eq, not_false_eq_true, and_self, if_true, step, Option.bind_some]

/-- The text ends where no further quote follows. -/
theorem basicRest_end (h : closing multi ≤ n) (hrest : rest.head? ≠ some '"') :
    basicRest multi (.quotes n) rest = some (List.replicate (n - closing multi) '"', rest) := by
  cases rest with
  | nil => rw [basicRest, closed_of_le h, Option.map_some]
  | cons c cs =>
    have hc : c ≠ '"' := fun he => hrest (by rw [he]; rfl)
    rw [basicRest, closed_of_le h]
    simp only [hc, false_and, if_false]

/-- The quotes that close a text, after those that belong to it. -/
theorem basicRest_closing (hn : n ≤ room multi) (hrest : rest.head? ≠ some '"') :
    basicRest multi (.quotes n) (List.replicate (closing multi) '"' ++ rest)
      = some (List.replicate n '"', rest) := by
  cases multi with
  | false =>
    obtain rfl : n = 0 := Nat.le_zero.mp hn
    have hopen : 0 < closing false := by decide
    have hclosed : closing false ≤ 1 := by decide
    exact (basicRest_quote hopen rest).trans (basicRest_end hclosed hrest)
  | true =>
    -- with `n` quotes of the text the third one that closes it is quote `n + 3`
    have hend : ∀ n, basicRest true (.quotes (n + 3)) rest
        = some (List.replicate n '"', rest) := by
      intro n
      have hclosed : closing true ≤ n + 3 := Nat.le_add_left 3 n
      exact basicRest_end hclosed hrest
    have hquote : ∀ n cs, n < 5 → basicRest true (.quotes n) ('"' :: cs)
        = basicRest true (.quotes (n + 1)) cs := by
      intro n cs h
      rcases Nat.lt_or_ge n 3 with hlt | hge
      · exact basicRest_quote hlt cs
      · exact basicRest_quote_more hge h cs
    have hn : n ≤ 2 := hn
    show basicRest true (.quotes n) ('"' :: '"' :: '"' :: rest) = _
    rw [hquote n _ (by omega), hquote (n + 1) _ (by omega), hquote (n + 2) _ (by omega), hend n]

/-- A character that is no quote: the quotes before it belong to the text. -/
theorem basicRest_plainStep (hn : n < closing multi) (hc : c ≠ '"') (cs : List Char) :
    basicRest multi (.quotes n) (c :: cs) =
      (plainStep multi c).bind fun (added, place) =>
        (basicRest multi place cs).map fun (text, rest) =>
          (List.replicate n '"' ++ added ++ text, rest) := by
  rw [basicRest_of_open (closed_of_lt hn)]
  simp only [step, hc, if_false]
  cases plainStep multi c <;> rfl

/-- A character that stands for itself. -/
theorem basicRest_self (hn : n < closing multi) (hc : c ≠ '"')
    (hself : plainStep multi c = some ([c], .plain)) (cs : List Char) :
    basicRest multi (.quotes n) (c :: cs) =
      (basicRest multi (.quotes 0) cs).map fun (text, rest) =>
        (List.replicate n '"' ++ c :: text, rest) := by
  rw [basicRest_plainStep hn hc, hself, Option.bind_some]
  simp [basicRest_plain]

/-- The digits of a character. -/
theorem basicRest_digit {missing value d : Nat} (hd : Bytes.hexValue? c = some d)
    (hmissing : missing ≠ 1) (cs : List Char) :
    basicRest multi (.digits missing value) (c :: cs)
      = basicRest multi (.digits (missing - 1) (value * 16 + d)) cs := by
  have hclosed : closed? multi (.digits missing value) = none := rfl
  rw [basicRest_of_open hclosed]
  simp only [step, hd, Option.bind_eq_bind, Option.bind_some, hmissing, if_false,
    List.nil_append]
  cases basicRest multi (.digits (missing - 1) (value * 16 + d)) cs <;> rfl

theorem basicRest_last_digit {value d : Nat} {e : Char} (hd : Bytes.hexValue? c = some d)
    (he : scalar? (value * 16 + d) = some e) (cs : List Char) :
    basicRest multi (.digits 1 value) (c :: cs) =
      (basicRest multi (.quotes 0) cs).map fun (text, rest) => (e :: text, rest) := by
  have hclosed : closed? multi (.digits 1 value) = none := rfl
  rw [basicRest_of_open hclosed]
  simp only [step, hd, Option.bind_eq_bind, Option.bind_some, if_true, he, Option.map_some,
    basicRest_plain, List.singleton_append]

/-- What an escape begins with. -/
theorem basicRest_backslash (hn : n < closing multi) (cs : List Char) :
    basicRest multi (.quotes n) ('\\' :: cs) =
      (basicRest multi .opened cs).map fun (text, rest) =>
        (List.replicate n '"' ++ text, rest) := by
  have hstep : plainStep multi '\\' = some ([], .opened) := rfl
  rw [basicRest_plainStep hn (by decide), hstep, Option.bind_some]
  simp

/-- The characters that need an escape have one: a letter for the character, or
    its code. -/
theorem escape_cases (h : isControl c = true ∨ c = '\t' ∨ c = '\n' ∨ c = '\\') :
    (∃ d, escape c = ['\\', d] ∧ d ≠ 'u' ∧ d ≠ 'U' ∧ unescape d = some c) ∨
      (c.toNat < 128 ∧
        escape c = ['\\', 'u', '0', '0', hexDigit (c.toNat / 16), hexDigit (c.toNat % 16)]) := by
  -- the letters are tried in the order in which they are written
  by_cases hb : c.toNat = 8
  · refine .inl ⟨'b', by simp [escape, hb], by decide, by decide, ?_⟩
    have hc : Char.ofNat 8 = c := by rw [← hb, Char.ofNat_toNat]
    rw [← hc]
    rfl
  by_cases ht : c = '\t'
  · subst ht
    exact .inl ⟨'t', rfl, by decide, by decide, rfl⟩
  by_cases hl : c = '\n'
  · subst hl
    exact .inl ⟨'n', rfl, by decide, by decide, rfl⟩
  by_cases hf : c.toNat = 12
  · refine .inl ⟨'f', by simp [escape, hf, ht, hl], by decide, by decide, ?_⟩
    have hc : Char.ofNat 12 = c := by rw [← hf, Char.ofNat_toNat]
    rw [← hc]
    rfl
  by_cases hr : c = '\r'
  · subst hr
    exact .inl ⟨'r', rfl, by decide, by decide, rfl⟩
  by_cases hs : c = '\\'
  · subst hs
    exact .inl ⟨'\\', rfl, by decide, by decide, rfl⟩
  have hcontrol : isControl c = true := by simpa [ht, hl, hs] using h
  have hcode : c.toNat < 32 ∨ c.toNat = 127 := by
    simp only [isControl, Bool.or_eq_true, Bool.and_eq_true, decide_eq_true_eq] at hcontrol
    rcases hcontrol with ⟨⟨hlt, -⟩, -⟩ | heq
    · exact .inl hlt
    · exact .inr heq
  have hq : c ≠ '"' := by
    rintro rfl
    rcases hcode with hlt | heq
    · exact absurd hlt (by decide)
    · exact absurd heq (by decide)
  exact .inr ⟨by omega, by simp [escape, hb, ht, hl, hf, hr, hs, hq]⟩

/-- An escape is read as the character it was made from. -/
theorem basicRest_escape (hn : n < closing multi)
    (h : isControl c = true ∨ c = '\t' ∨ c = '\n' ∨ c = '\\') (cs : List Char) :
    basicRest multi (.quotes n) (escape c ++ cs) =
      (basicRest multi (.quotes 0) cs).map fun (text, rest) =>
        (List.replicate n '"' ++ c :: text, rest) := by
  have hclosed : closed? multi .opened = none := rfl
  rcases escape_cases h with ⟨d, hescape, hu, hU, hd⟩ | ⟨hcode, hescape⟩
  · rw [hescape, List.cons_append, basicRest_backslash hn, List.singleton_append,
      basicRest_of_open hclosed]
    simp [step, openedStep, hu, hU, hd, basicRest_plain, Function.comp_def]
  · have hfirst : ∀ cs, basicRest multi .opened ('u' :: cs) = basicRest multi (.digits 4 0) cs := by
      intro cs
      rw [basicRest_of_open hclosed]
      simp only [step, openedStep, if_true, Option.bind_some, List.nil_append]
      cases basicRest multi (.digits 4 0) cs <;> rfl
    have hzero : Bytes.hexValue? '0' = some 0 := rfl
    have hhigh : Bytes.hexValue? (hexDigit (c.toNat / 16)) = some (c.toNat / 16) :=
      hexValue_hexDigit (by omega)
    have hlow : Bytes.hexValue? (hexDigit (c.toNat % 16)) = some (c.toNat % 16) :=
      hexValue_hexDigit (Nat.mod_lt _ (by decide))
    have hscalar : scalar? (c.toNat / 16 * 16 + c.toNat % 16) = some c := by
      rw [Nat.div_add_mod', scalar_toNat]
    rw [hescape, List.cons_append, basicRest_backslash hn]
    simp only [List.cons_append, List.nil_append, hfirst]
    rw [basicRest_digit hzero (by decide), basicRest_digit hzero (by decide),
      basicRest_digit hhigh (by decide), basicRest_last_digit hlow (by simpa using hscalar)]
    simp [Function.comp_def]

/-- A text with escapes is read back.  Of the quotes in a row `n` just stood. -/
theorem basicRest_escaped (cs : List Char) (hn : n ≤ room multi)
    (hrest : rest.head? ≠ some '"') :
    basicRest multi (.quotes n) (escaped multi n cs ++ (List.replicate (closing multi) '"' ++ rest))
      = some (List.replicate n '"' ++ cs, rest) := by
  have hroom : room multi < closing multi := by cases multi <;> decide
  induction cs generalizing n with
  | nil => rw [escaped, List.nil_append, basicRest_closing hn hrest, List.append_nil]
  | cons c cs ih =>
    have hlt : n < closing multi := Nat.lt_of_le_of_lt hn hroom
    have hzero := ih (Nat.zero_le _)
    have hfold : (if multi then 2 else 0) = room multi := rfl
    rw [escaped]
    simp only [hfold]
    split
    · next hquote =>
      subst hquote
      split
      · next hmore =>
        -- one more quote in a row
        rw [List.cons_append, basicRest_quote hlt, ih hmore, List.replicate_succ',
          List.append_assoc, List.singleton_append]
      · have hclosed : closed? multi .opened = none := rfl
        rw [List.cons_append, basicRest_backslash hlt, List.cons_append,
          basicRest_of_open hclosed]
        simp [step, openedStep, unescape, basicRest_plain, hzero]
    · next hquote =>
      split
      · next hbreak =>
        simp only [Bool.and_eq_true, decide_eq_true_eq] at hbreak
        obtain ⟨rfl, rfl⟩ := hbreak
        rw [List.cons_append, basicRest_self hlt hquote rfl, hzero]
        rfl
      · next hbreak =>
        split
        · next hescape =>
          simp only [Bool.or_eq_true, decide_eq_true_eq, or_assoc] at hescape
          rw [List.append_assoc, basicRest_escape hlt hescape, hzero]
          rfl
        · next hself =>
          simp only [Bool.or_eq_true, decide_eq_true_eq, not_or, Bool.not_eq_true] at hself
          obtain ⟨⟨⟨hcontrol, -⟩, hline⟩, hslash⟩ := hself
          have hplain : plainStep multi c = some ([c], .plain) := by
            rw [plainStep, if_neg hslash, if_pos (isPlain_of_not_control hcontrol hline)]
          rw [List.cons_append, basicRest_self hlt hquote hplain, hzero]
          rfl

/-! ## Texts without escapes -/

/-- A text between apostrophes. -/
theorem literalRest_append (cs rest : List Char)
    (h : ∀ c ∈ cs, c ≠ '\'' ∧ isPlain c = true) :
    literalRest (cs ++ '\'' :: rest) = some (cs, rest) := by
  induction cs with
  | nil => rfl
  | cons c cs ih =>
    obtain ⟨hc, hplain⟩ := h c (List.mem_cons_self ..)
    rw [List.cons_append, literalRest, if_neg hc, if_pos hplain,
      ih fun d hd => h d (List.mem_cons_of_mem _ hd)]
    rfl

/-- A run that is at hand counts. -/
theorem le_longestRun (c : Char) (cs : List Char) (current longest : Nat) :
    current ≤ longestRun c current longest cs ∧ longest ≤ longestRun c current longest cs := by
  induction cs generalizing current longest with
  | nil => exact ⟨Nat.le_max_left .., Nat.le_max_right ..⟩
  | cons d cs ih =>
    rw [longestRun]
    split
    · obtain ⟨hcurrent, hlongest⟩ := ih (current + 1) longest
      exact ⟨Nat.le_of_succ_le hcurrent, hlongest⟩
    · have hmax := (ih 0 (max current longest)).2
      exact ⟨Nat.le_trans (Nat.le_max_left ..) hmax, Nat.le_trans (Nat.le_max_right ..) hmax⟩

theorem longestRun_mono {c : Char} (cs : List Char) {current longest longest' : Nat}
    (h : longest' ≤ longest) :
    longestRun c current longest' cs ≤ longestRun c current longest cs := by
  induction cs generalizing current longest longest' with
  | nil =>
    simp only [longestRun]
    omega
  | cons d cs ih =>
    simp only [longestRun]
    split
    · exact ih h
    · exact ih (by omega)

/-- Where no run is longer than nothing, the character does not occur. -/
theorem notMem_of_longestRun_eq_zero {c : Char} (cs : List Char) {current longest : Nat}
    (h : longestRun c current longest cs = 0) : c ∉ cs := by
  induction cs generalizing current longest with
  | nil => exact List.not_mem_nil
  | cons d cs ih =>
    rw [longestRun] at h
    split at h
    · have hle := (le_longestRun c cs (current + 1) longest).1
      omega
    · next hne =>
      rintro (_ | ⟨_, hmem⟩)
      · exact hne rfl
      · exact ih h hmem

/-- The apostrophes that close a text, after those that belong to it. -/
theorem multiLiteralRest_closing {n : Nat} (hn : n ≤ 2) (hrest : rest.head? ≠ some '\'') :
    multiLiteralRest n false ('\'' :: '\'' :: '\'' :: rest)
      = some (List.replicate n '\'', rest) := by
  have hquote : ∀ n cs, n < 5 → multiLiteralRest n false ('\'' :: cs)
      = multiLiteralRest (n + 1) false cs := by
    intro n cs h
    rw [multiLiteralRest]
    simp [h]
  rw [hquote n _ (by omega), hquote (n + 1) _ (by omega), hquote (n + 2) _ (by omega)]
  cases rest with
  | nil => simp [multiLiteralRest]
  | cons c cs =>
    have hc : c ≠ '\'' := fun he => hrest (by rw [he]; rfl)
    rw [multiLiteralRest]
    simp [hc]

/-- A text between three apostrophes.  Of the apostrophes in a row `n` just
    stood. -/
theorem multiLiteralRest_append {n : Nat} (cs : List Char) (hn : n ≤ 2)
    (hruns : longestRun '\'' n 0 cs ≤ 2) (hplain : ∀ c ∈ cs, isPlain c = true ∨ c = '\n')
    (hrest : rest.head? ≠ some '\'') :
    multiLiteralRest n false (cs ++ '\'' :: '\'' :: '\'' :: rest)
      = some (List.replicate n '\'' ++ cs, rest) := by
  induction cs generalizing n with
  | nil => rw [List.nil_append, multiLiteralRest_closing hn hrest, List.append_nil]
  | cons c cs ih =>
    have hplain' : ∀ d ∈ cs, isPlain d = true ∨ d = '\n' :=
      fun d hd => hplain d (List.mem_cons_of_mem _ hd)
    rw [longestRun] at hruns
    rw [List.cons_append, multiLiteralRest]
    split at hruns
    · next hc =>
      subst hc
      have hmore : n + 1 ≤ 2 := Nat.le_trans (le_longestRun '\'' cs (n + 1) 0).1 hruns
      have hlt : n < 5 := by omega
      simp only [Bool.false_eq_true, if_false, hlt, and_self, if_true]
      rw [ih hmore hruns hplain', List.replicate_succ', List.append_assoc, List.singleton_append]
    · next hc =>
      have hruns' : longestRun '\'' 0 0 cs ≤ 2 :=
        Nat.le_trans (longestRun_mono cs (Nat.zero_le _)) hruns
      have hopen : ¬ 3 ≤ n := by omega
      simp only [Bool.false_eq_true, if_false, hc, false_and, hopen,
        hplain c (List.mem_cons_self ..), if_true]
      rw [ih (Nat.zero_le _) hruns' hplain']
      rfl

/-! ## Texts in their forms -/

/-- What a text may need of the characters in a literal form. -/
theorem plain_of_no_control {cs : List Char} (h : cs.any isControl = false) {c : Char}
    (hc : c ∈ cs) : isPlain c = true ∨ c = '\n' := by
  have hcontrol : isControl c = false := by
    have hall := List.any_eq_false.mp h c hc
    simpa using hall
  by_cases hbreak : c = '\n'
  · exact .inr hbreak
  · exact .inl (isPlain_of_not_control hcontrol hbreak)

/-- What a form can hold. -/
def Form.Holds (cs : List Char) : Form → Prop
  | .basic | .multiBasic => True
  | .literal => ∀ c ∈ cs, c ≠ '\'' ∧ isPlain c = true
  | .multiLiteral =>
    longestRun '\'' 0 0 cs ≤ 2 ∧ ∀ c ∈ cs, isPlain c = true ∨ c = '\n'

theorem holds_of (cs : List Char) : (Form.of cs).Holds cs := by
  unfold Form.of
  simp only
  split
  · trivial
  · split
    · next h =>
      simp only [Bool.and_eq_true, Bool.not_eq_true', decide_eq_true_eq] at h
      obtain ⟨⟨hcontrol, hnone⟩, hline⟩ := h
      intro c hc
      refine ⟨?_, ?_⟩
      · rintro rfl
        exact notMem_of_longestRun_eq_zero cs hnone hc
      · refine (plain_of_no_control hcontrol hc).resolve_right ?_
        rintro rfl
        simp [hc] at hline
    · split
      · trivial
      · split
        · next h =>
          simp only [Bool.and_eq_true, Bool.not_eq_true', decide_eq_true_eq] at h
          exact ⟨h.2, fun c hc => plain_of_no_control h.1 hc⟩
        · split <;> trivial

/-- The form of a name is one line. -/
theorem holds_keyForm (cs : List Char) :
    keyForm cs = .basic ∨ keyForm cs = .literal ∧ Form.Holds cs .literal := by
  unfold keyForm
  simp only
  split
  · exact .inl rfl
  · next hbroken =>
    split
    · exact .inl rfl
    · split
      · next hquote =>
        refine .inr ⟨rfl, fun c hc => ⟨?_, ?_⟩⟩
        · rintro rfl
          simp [hc] at hquote
        · simp only [Bool.not_eq_true, List.any_eq_false, Bool.or_eq_true, decide_eq_true_eq,
            not_or] at hbroken
          exact isPlain_of_not_control (hbroken c hc).1 (hbroken c hc).2
      · exact .inl rfl

/-- A text on one line between quotes. -/
theorem readLine_basic (cs : List Char) (hrest : Follows rest) :
    readLine (writeAs .basic cs ++ rest) = some (cs, rest) := by
  have hroom : 0 ≤ room false := Nat.le_refl _
  have hread := basicRest_escaped cs hroom hrest.1
  rw [← basicRest_plain] at hread
  simpa [writeAs, readLine, closing] using hread

/-- A text on one line between apostrophes. -/
theorem readLine_literal {cs : List Char} (h : Form.Holds cs .literal) (rest : List Char) :
    readLine (writeAs .literal cs ++ rest) = some (cs, rest) := by
  have hread := literalRest_append cs rest h
  simpa [writeAs, readLine] using hread

/-- What an escaped text begins with on one line. -/
theorem head_escaped_false (cs : List Char) : (escaped false 0 cs).head? ≠ some '"' := by
  cases cs with
  | nil => exact nofun
  | cons c cs =>
    rw [escaped]
    split
    · simp
    · next hc =>
      split
      · next h => simp at h
      · split
        · next h =>
          simp only [Bool.or_eq_true, decide_eq_true_eq, or_assoc] at h
          rcases escape_cases h with ⟨d, hescape, -⟩ | ⟨-, hescape⟩ <;> simp [hescape]
        · simpa using hc

/-- A text on one line is not taken for one on several. -/
theorem readText_quote {cs : List Char} (h : ∀ tail, cs ≠ '"' :: '"' :: tail) :
    readText ('"' :: cs) = readLine ('"' :: cs) := by
  rw [readText]
  · intro tail he
    exact h tail (List.cons.inj he).2
  · exact nofun

theorem readText_apostrophe {cs : List Char} (h : ∀ tail, cs ≠ '\'' :: '\'' :: tail) :
    readText ('\'' :: cs) = readLine ('\'' :: cs) := by
  rw [readText]
  · exact nofun
  · intro tail he
    exact h tail (List.cons.inj he).2

theorem readText_basic (cs : List Char) (hrest : Follows rest) :
    readText (writeAs .basic cs ++ rest) = some (cs, rest) := by
  have hone : ∀ tail, escaped false 0 cs ++ '"' :: rest ≠ '"' :: '"' :: tail := by
    intro tail he
    have hhead := head_escaped_false cs
    cases hcs : escaped false 0 cs with
    | nil =>
      rw [hcs, List.nil_append] at he
      exact hrest.1 (by rw [(List.cons.inj he).2]; rfl)
    | cons c more =>
      rw [hcs] at hhead he
      rw [List.cons_append] at he
      exact hhead (by rw [(List.cons.inj he).1]; rfl)
  have htext : writeAs .basic cs ++ rest = '"' :: (escaped false 0 cs ++ '"' :: rest) := by
    simp [writeAs]
  rw [htext, readText_quote hone, ← htext, readLine_basic cs hrest]

theorem readText_literal {cs : List Char} (h : Form.Holds cs .literal) (hrest : Follows rest) :
    readText (writeAs .literal cs ++ rest) = some (cs, rest) := by
  have hone : ∀ tail, cs ++ '\'' :: rest ≠ '\'' :: '\'' :: tail := by
    intro tail he
    cases cs with
    | nil => exact hrest.2 (by rw [(List.cons.inj he).2]; rfl)
    | cons c cs => exact (h c (List.mem_cons_self ..)).1 (List.cons.inj he).1
  have htext : writeAs .literal cs ++ rest = '\'' :: (cs ++ '\'' :: rest) := by simp [writeAs]
  rw [htext, readText_apostrophe hone, ← htext, readLine_literal h]

/-- The line break that a text on several lines starts with is dropped, and
    nothing else is. -/
theorem skipBreak_start {cs tail : List Char} (hreturn : tail.head? ≠ some '\r')
    (hbreak : cs.contains '\n' = false → tail.head? ≠ some '\n') :
    skipBreak ((if cs.contains '\n' then ['\n'] else []) ++ tail) = tail := by
  split
  · rfl
  · next h =>
    have hline := hbreak (by simpa using h)
    cases tail with
    | nil => rfl
    | cons c tail =>
      have h₁ : c ≠ '\n' := fun he => hline (by rw [he]; rfl)
      have h₂ : c ≠ '\r' := fun he => hreturn (by rw [he]; rfl)
      rw [List.nil_append, skipBreak]
      · rintro r he
        cases he
        exact h₁ rfl
      · rintro r he
        cases he
        exact h₂ rfl

/-- What an escaped text begins with on several lines. -/
theorem head_escaped_true (cs rest : List Char) :
    (escaped true 0 cs ++ '"' :: rest).head? ≠ some '\r' ∧
      (cs.contains '\n' = false → (escaped true 0 cs ++ '"' :: rest).head? ≠ some '\n') := by
  cases cs with
  | nil => exact ⟨by simp [escaped], by simp [escaped]⟩
  | cons c cs =>
    rw [escaped]
    split
    · simp
    · split
      · next h =>
        simp only [Bool.and_true, decide_eq_true_eq] at h
        subst h
        exact ⟨by simp, by simp⟩
      · next hline =>
        split
        · next h =>
          simp only [Bool.or_eq_true, decide_eq_true_eq, or_assoc] at h
          rcases escape_cases h with ⟨d, hescape, -⟩ | ⟨-, hescape⟩ <;> simp [hescape]
        · next h =>
          have hline : c ≠ '\n' := by simpa using hline
          have hreturn : c ≠ '\r' := by
            rintro rfl
            exact h rfl
          exact ⟨by simpa using hreturn, fun _ => by simpa using hline⟩

theorem readText_multiBasic (cs : List Char) (hrest : Follows rest) :
    readText (writeAs .multiBasic cs ++ rest) = some (cs, rest) := by
  have hroom : 0 ≤ room true := Nat.zero_le _
  have hread := basicRest_escaped cs hroom hrest.1
  rw [← basicRest_plain] at hread
  obtain ⟨hreturn, hbreak⟩ := head_escaped_true cs ('"' :: '"' :: rest)
  have hskip := skipBreak_start hreturn hbreak
  have htext : writeAs .multiBasic cs ++ rest = '"' :: '"' :: '"' ::
      ((if cs.contains '\n' then ['\n'] else []) ++
        (escaped true 0 cs ++ '"' :: '"' :: '"' :: rest)) := by
    simp [writeAs]
  rw [htext, readText, hskip]
  exact hread

theorem readText_multiLiteral {cs : List Char} (h : Form.Holds cs .multiLiteral)
    (hrest : Follows rest) :
    readText (writeAs .multiLiteral cs ++ rest) = some (cs, rest) := by
  obtain ⟨hruns, hplain⟩ := h
  have hread := multiLiteralRest_append cs (Nat.zero_le 2) hruns hplain hrest.2
  have hskip : skipBreak ((if cs.contains '\n' then ['\n'] else []) ++
      (cs ++ '\'' :: '\'' :: '\'' :: rest)) = cs ++ '\'' :: '\'' :: '\'' :: rest := by
    cases cs with
    | nil => exact skipBreak_start (by simp) (by simp)
    | cons c cs =>
      refine skipBreak_start ?_ ?_
      · rintro he
        cases he
        rcases hplain '\r' (List.mem_cons_self ..) with hc | hc
        · exact absurd hc (by decide)
        · exact absurd hc (by decide)
      · intro hline he
        cases he
        simp at hline
  have htext : writeAs .multiLiteral cs ++ rest = '\'' :: '\'' :: '\'' ::
      ((if cs.contains '\n' then ['\n'] else []) ++
        (cs ++ '\'' :: '\'' :: '\'' :: rest)) := by
    simp [writeAs]
  rw [htext, readText, hskip]
  exact hread

/-! ## Main theorems -/

/-- Every text is read back from the form that it is written in. -/
theorem readText_writeText (s : String) (hrest : Follows rest) :
    readText (writeText s ++ rest) = some (s.toList, rest) := by
  have hholds := holds_of s.toList
  rw [writeText]
  cases hform : Form.of s.toList with
  | basic => exact readText_basic _ hrest
  | literal =>
    rw [hform] at hholds
    exact readText_literal hholds hrest
  | multiBasic => exact readText_multiBasic _ hrest
  | multiLiteral =>
    rw [hform] at hholds
    exact readText_multiLiteral hholds hrest

/-- A name is read back.  What follows it is no delimiter and does not belong
    into a name without quotes. -/
theorem readKey_writeKey (s : String) (hrest : Follows rest)
    (hbare : ∀ c, rest.head? = some c → isBare c = false) :
    readKey (writeKey s ++ rest) = some (s, rest) := by
  rw [writeKey]
  split
  · next h =>
    simp only [Bool.and_eq_true, Bool.not_eq_true', List.all_eq_true,
      List.isEmpty_eq_false_iff] at h
    obtain ⟨hne, hall⟩ := h
    have htake : (s.toList ++ rest).takeWhile isBare = s.toList := by
      rw [List.takeWhile_append_of_pos hall]
      cases rest with
      | nil => simp
      | cons c rest => simp [hbare c rfl]
    obtain ⟨c, cs, hcs⟩ := List.exists_cons_of_ne_nil hne
    have hc : isBare c = true := hall c (by rw [hcs]; exact List.mem_cons_self ..)
    have hplain : readKey (s.toList ++ rest) =
        if ((s.toList ++ rest).takeWhile isBare).isEmpty then none
        else some (String.ofList ((s.toList ++ rest).takeWhile isBare),
          (s.toList ++ rest).drop ((s.toList ++ rest).takeWhile isBare).length) := by
      rw [hcs, List.cons_append, readKey]
      · rintro r he
        cases he
        exact absurd hc (by decide)
      · rintro r he
        cases he
        exact absurd hc (by decide)
    rw [hplain, htake]
    simp [hne]
  · rcases holds_keyForm s.toList with hform | ⟨hform, hholds⟩
    · rw [hform]
      have hread := readLine_basic s.toList hrest
      simp only [writeAs, List.cons_append] at hread ⊢
      rw [readKey, hread]
      simp
    · rw [hform]
      have hread := readLine_literal hholds rest
      simp only [writeAs, List.cons_append] at hread ⊢
      rw [readKey, hread]
      simp

end MessageBus.Toml
