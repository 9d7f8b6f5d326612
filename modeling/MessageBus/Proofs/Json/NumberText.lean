import MessageBus.Json.Reader
import MessageBus.Json.Writer

/-! # The text of a number

    The reader of JSON text knows a number by its characters alone: it starts
    with a sign or a digit and goes on as long as the characters may stand in a
    number.  The text of every number that has one is of this kind, so it is
    read as a whole.

    * `numeral_chars`: the shape of the text of a number.
    * `run_number`: the reader gathers such a text. -/

namespace MessageBus.Json

open Reader

/-! ## Characters -/

theorem isNumeric_of_isDigit {c : Char} (h : c.isDigit = true) : isNumeric c = true := by
  simp [isNumeric, h]

/-- A sign or a digit, and then characters that may stand in a number. -/
structure Numeral (cs : List Char) : Prop where
  numeric : ∀ c ∈ cs, isNumeric c = true
  head : ∃ c rest, cs = c :: rest ∧ (c = '-' ∨ c.isDigit = true)

/-- Digits alone, with something numeric after them. -/
theorem Numeral.of_digits (digits rest : List Char) (hne : digits ≠ [])
    (hd : ∀ c ∈ digits, c.isDigit = true) (hr : ∀ c ∈ rest, isNumeric c = true) :
    Numeral (digits ++ rest) := by
  refine ⟨?_, ?_⟩
  · intro c hc
    rcases List.mem_append.mp hc with hc | hc
    · exact isNumeric_of_isDigit (hd c hc)
    · exact hr c hc
  · cases digits with
    | nil => exact absurd rfl hne
    | cons c digits => exact ⟨c, digits ++ rest, rfl, .inr (hd c (by simp))⟩

theorem Numeral.minus {cs : List Char} (h : Numeral cs) : Numeral ('-' :: cs) := by
  refine ⟨?_, '-', cs, rfl, .inl rfl⟩
  intro c hc
  rcases List.mem_cons.mp hc with rfl | hc
  · decide
  · exact h.numeric c hc

theorem Numeral.signed {cs : List Char} (h : Numeral cs) (negative : Bool) :
    Numeral ((if negative then ['-'] else []) ++ cs) := by
  cases negative with
  | false => exact h
  | true => exact h.minus

/-! ## Integers and floating-point numbers -/

theorem digits_toDigits (n : Nat) : ∀ c ∈ Nat.toDigits 10 n, c.isDigit = true :=
  fun _ hc => Nat.isDigit_of_mem_toDigits (by decide) (by decide) hc

theorem numeral_toDigits (n : Nat) : Numeral (Nat.toDigits 10 n) := by
  have h := Numeral.of_digits _ [] Nat.toDigits_ne_nil (digits_toDigits n) (by simp)
  simpa using h

theorem digits_dropTrailingZeros {digits : List Char} (hd : ∀ c ∈ digits, c.isDigit = true) :
    ∀ c ∈ Number.dropTrailingZeros digits, c.isDigit = true := by
  intro c hc
  have hmem : c ∈ digits.reverse :=
    (List.dropWhile_sublist (· == '0')).subset (List.mem_reverse.mp hc)
  exact hd c (List.mem_reverse.mp hmem)

theorem digits_zeros (n : Nat) : ∀ c ∈ Number.zeros n, c.isDigit = true := by
  intro c hc
  rw [List.eq_of_mem_replicate hc]
  decide

/-- A point with digits behind it. -/
theorem numeric_fraction {digits : List Char} (hd : ∀ c ∈ digits, c.isDigit = true) :
    ∀ c ∈ '.' :: digits, isNumeric c = true := by
  intro c hc
  rcases List.mem_cons.mp hc with rfl | hc
  · decide
  · exact isNumeric_of_isDigit (hd c hc)

theorem numeral_pointed {digits : List Char} (point : Int)
    (hd : ∀ c ∈ digits, c.isDigit = true) : Numeral (Number.pointed digits point) := by
  unfold Number.pointed
  split
  · refine Numeral.of_digits ['0'] _ (by simp) (digits_zeros 1) (numeric_fraction ?_)
    intro c hc
    rcases List.mem_append.mp hc with hc | hc
    · exact digits_zeros _ c hc
    · exact hd c hc
  · next hpos =>
    simp only
    split
    · next hlen =>
      refine Numeral.of_digits _ _ ?_ ?_ (numeric_fraction (digits_zeros 1))
      · -- the point is behind at least one place, which a digit or a zero fills
        intro hnil
        have hlen' := congrArg List.length hnil
        simp only [List.length_append, Number.zeros, List.length_replicate,
          List.length_nil] at hlen'
        omega
      · intro c hc
        rcases List.mem_append.mp hc with hc | hc
        · exact hd c hc
        · exact digits_zeros _ c hc
    · next hlen =>
      -- the point stands between two digits
      refine Numeral.of_digits _ _ ?_ ?_ (numeric_fraction ?_)
      · intro hnil
        have hlen' := congrArg List.length hnil
        simp only [List.length_take, List.length_nil] at hlen'
        omega
      · exact fun c hc => hd c (List.mem_of_mem_take hc)
      · exact fun c hc => hd c (List.mem_of_mem_drop hc)

theorem numeral_scientific {digits : List Char} (exponent : Int)
    (hd : ∀ c ∈ digits, c.isDigit = true) : Numeral (Number.scientific digits exponent) := by
  have htail : ∀ c ∈ 'e' :: (if exponent < 0 then '-' else '+') ::
      Nat.toDigits 10 exponent.natAbs, isNumeric c = true := by
    intro c hc
    rcases List.mem_cons.mp hc with rfl | hc
    · decide
    · rcases List.mem_cons.mp hc with rfl | hc
      · split <;> decide
      · exact isNumeric_of_isDigit (digits_toDigits _ c hc)
  unfold Number.scientific
  simp only
  split
  · next d => exact Numeral.of_digits [d] _ (by simp) hd htail
  · next d rest _ =>
    refine Numeral.of_digits [d] ('.' :: rest ++ _) (by simp) ?_ ?_
    · intro c hc
      exact hd c (by rw [List.mem_singleton.mp hc]; simp)
    · intro c hc
      rcases List.mem_append.mp hc with hc | hc
      · rcases List.mem_cons.mp hc with rfl | hc
        · decide
        · exact isNumeric_of_isDigit (hd c (List.mem_cons_of_mem _ hc))
      · exact htail c hc
  · exact Numeral.of_digits ['0'] _ (by simp) (digits_zeros 1) htail

theorem numeral_renderFloat (x : Binary64) : Numeral (Number.renderFloat x) := by
  unfold Number.renderFloat
  simp only
  have hd := digits_dropTrailingZeros (digits_toDigits x.shortest.digits)
  split
  · refine Numeral.signed ?_ _
    exact Numeral.of_digits ['0'] _ (by simp) (digits_zeros 1) (numeric_fraction (digits_zeros 1))
  · split
    · exact (numeral_pointed _ hd).signed _
    · exact (numeral_scientific _ hd).signed _

/-- Whether a number has a text: all but the floating-point numbers that are
    not finite. -/
def Number.hasText : Number → Bool
  | .int _ => true
  | .float x => x.isFinite

theorem numeral_chars {n : Number} (h : n.hasText = true) : Numeral n.chars := by
  cases n with
  | int i =>
    simp only [Number.chars]
    split
    · exact (numeral_toDigits _).minus
    · exact numeral_toDigits _
  | float x =>
    have hx : x.isFinite = true := h
    simp only [Number.chars, hx, if_true]
    exact numeral_renderFloat x

/-! ## Reading -/

/-- Characters of a number are gathered. -/
theorem run_numeric (stack : List Frame) (cs acc : List Char)
    (h : ∀ c ∈ cs, isNumeric c = true) :
    run ⟨stack, .number acc⟩ cs = some ⟨stack, .number (cs.reverse ++ acc)⟩ := by
  induction cs generalizing acc with
  | nil => rfl
  | cons c cs ih =>
    have hc := h c (by simp)
    have hrest := ih (c :: acc) fun d hd => h d (List.mem_cons_of_mem _ hd)
    simp only [run, List.foldlM_cons, step, hc, if_true, Option.bind_eq_bind, Option.bind_some]
    simpa [run] using hrest

/-- The text of a number is read as one number. -/
theorem run_number (stack : List Frame) {cs : List Char} (h : Numeral cs) :
    run ⟨stack, .value⟩ cs = some ⟨stack, .number cs.reverse⟩ := by
  obtain ⟨c, rest, rfl, hc⟩ := h.head
  have hstart : startValue stack c = some ⟨stack, .number [c]⟩ := by
    rcases hc with rfl | hc
    · rfl
    -- a digit starts none of the other values
    · have hne : ∀ d : Char, d.isDigit = false → c ≠ d := by
        rintro d hd rfl
        rw [hc] at hd
        cases hd
      simp [startValue, isSpace, hc, hne]
  have hrest := run_numeric stack rest [c] fun d hd => h.numeric d (List.mem_cons_of_mem _ hd)
  simp only [run, List.foldlM_cons, step, hstart, Option.bind_eq_bind, Option.bind_some]
  simpa [run] using hrest

end MessageBus.Json
