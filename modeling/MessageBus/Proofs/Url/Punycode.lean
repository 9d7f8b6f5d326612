import MessageBus.Url.Punycode

/-! # Reading Punycode after writing it

    A label is written as its ASCII characters and then the steps by which the
    others get in between.  Reading carries the steps out.  The last step puts
    in the last of the greatest characters, and the steps before it are those
    of the label without that character, so the label grows back character by
    character.

    * `readNumber_number`: a number, with whatever follows it.
    * `insertions_max`: the last step of a label.
    * `read_write`: after the steps of a label the label is there.
    * `decode_encode`: reading undoes writing. -/

namespace MessageBus.Punycode

/-! ## Numbers -/

theorem digit?_digit {n : Nat} (h : n < 36) : digit? (digit n) = some n := by
  revert n
  decide

theorem threshold_pos (bias column : Nat) : 1 ≤ threshold bias column := Nat.le_max_left ..

theorem threshold_le (bias column : Nat) : threshold bias column ≤ 26 := by
  unfold threshold
  omega

/-- A number is read as it was written. -/
theorem readNumber_number (bias n : Nat) : ∀ (column weight : Nat) (rest : List Char),
    readNumber bias column weight (number bias column n ++ rest) = some (n * weight, rest) := by
  induction n using Nat.strongRecOn with
  | ind n ih =>
    intro column weight rest
    have hpos := threshold_pos bias column
    have hle := threshold_le bias column
    -- Above the threshold a digit is written, and the quotient from the next column on, where every
    -- digit counts 36 - t times as much.
    rw [number]
    by_cases hlt : n < threshold bias column
    · simp [hlt, readNumber, digit?_digit (show n < 36 by omega)]
    · generalize ht : threshold bias column = t at hpos hle hlt ⊢
      have hmod : (n - t) % (36 - t) < 36 - t := Nat.mod_lt _ (by omega)
      have hdiv := Nat.mod_add_div (n - t) (36 - t)
      have hsmall : (n - t) / (36 - t) < n :=
        Nat.lt_of_le_of_lt (Nat.div_le_self _ _) (by omega)
      have hdigit : digit? (digit (t + (n - t) % (36 - t))) = some (t + (n - t) % (36 - t)) :=
        digit?_digit (by omega)
      have hvalue : (t + (n - t) % (36 - t)) * weight + (n - t) / (36 - t) * (weight * (36 - t)) =
          n * weight := by
        generalize (n - t) / (36 - t) = q at hdiv ⊢
        generalize (n - t) % (36 - t) = r at hdiv ⊢
        have hn : n = t + r + (36 - t) * q := by omega
        rw [hn, Nat.add_mul (t + r)]
        congr 1
        ac_rfl
      simp only [hlt, if_false, List.cons_append, readNumber, hdigit, ht, Option.bind_eq_bind,
        Option.bind_some]
      rw [if_neg (by omega), ih _ hsmall]
      simp [hvalue]

theorem number_ne_nil (bias column n : Nat) : number bias column n ≠ [] := by
  rw [number]
  split <;> exact List.cons_ne_nil _ _

/-! ## Steps -/

/-- The cursor after some insertions. -/
def Cursor.after (s : Cursor) : List Insertion → Cursor
  | [] => s
  | x :: xs => (s.advance x (s.distance x)).after xs

theorem after_append (s : Cursor) (xs ys : List Insertion) :
    s.after (xs ++ ys) = (s.after xs).after ys := by
  induction xs generalizing s with
  | nil => rfl
  | cons x xs ih => exact ih _

theorem write_append (s : Cursor) (xs ys : List Insertion) :
    write s (xs ++ ys) = write s xs ++ write (s.after xs) ys := by
  induction xs generalizing s with
  | nil => rfl
  | cons x xs ih =>
    rw [List.cons_append, write, write, ih, List.append_assoc]
    rfl

/-- An insertion does not lie before the cursor. -/
structure Cursor.Reaches (s : Cursor) (x : Insertion) : Prop where
  point : s.point ≤ x.point
  place : s.point = x.point → s.place ≤ x.place
  inside : s.place ≤ s.length ∧ x.place ≤ s.length

/-- The distance to an insertion leads to it. -/
theorem target_distance {s : Cursor} {x : Insertion} (h : s.Reaches x) :
    s.target (s.distance x) = x := by
  obtain ⟨hpoint, hplace, hcursor, hinside⟩ := h
  -- The distance counts places; dividing by their number gives the code points back.
  have hsum : s.place + s.distance x = (s.length + 1) * (x.point - s.point) + x.place := by
    rw [Cursor.distance, Nat.mul_comm]
    rcases Nat.eq_or_lt_of_le hpoint with heq | hlt
    · have hafter := hplace heq
      rw [← heq, Nat.sub_self, Nat.mul_zero]
      omega
    · have hstep : s.length + 1 ≤ (s.length + 1) * (x.point - s.point) :=
        Nat.le_mul_of_pos_right _ (by omega)
      omega
  have hquotient : (s.place + s.distance x) / (s.length + 1) = x.point - s.point := by
    rw [hsum, Nat.mul_add_div (by omega), Nat.div_eq_of_lt (by omega), Nat.add_zero]
  have hremainder : (s.place + s.distance x) % (s.length + 1) = x.place := by
    rw [hsum, Nat.mul_add_mod, Nat.mod_eq_of_lt (by omega)]
  rw [Cursor.target, hquotient, hremainder, Nat.add_sub_cancel' hpoint]

theorem character?_toNat {c : Char} (h : 128 ≤ c.toNat) : character? c.toNat = some c := by
  simp [character?, h, Char.ofNat_toNat]

/-- Reading a step carries it out. -/
theorem read_step {s : Cursor} {c : Char} {place : Nat} (hc : 128 ≤ c.toNat)
    (h : s.Reaches ⟨c.toNat, place⟩) (label rest : List Char) :
    read s label (write s [⟨c.toNat, place⟩] ++ rest) =
      read (s.after [⟨c.toNat, place⟩]) (label.insertIdx place c) rest := by
  have hread := readNumber_number s.bias (s.distance ⟨c.toNat, place⟩) 36 1 rest
  obtain ⟨d, ds, hdigits⟩ :=
    List.exists_cons_of_ne_nil (number_ne_nil s.bias 36 (s.distance ⟨c.toNat, place⟩))
  simp only [write, List.append_nil]
  rw [Nat.mul_one] at hread
  have hcons : number s.bias 36 (s.distance ⟨c.toNat, place⟩) ++ rest = d :: (ds ++ rest) := by
    rw [hdigits, List.cons_append]
  rw [hcons] at hread ⊢
  rw [read.eq_def]
  simp only
  split
  · next hnone => simp [hread] at hnone
  · next n rest' hsome =>
    obtain ⟨rfl, rfl⟩ : n = s.distance ⟨c.toNat, place⟩ ∧ rest' = rest := by
      simpa [hread, eq_comm] using hsome
    rw [target_distance h, character?_toNat hc]
    rfl

/-! ## The last step -/

section sorting
variable {α : Type} {le : α → α → Bool}

/-- A list is cut in one way only into what a test refuses and what it accepts. -/
theorem append_inj_of_test {p : α → Bool} {l₁ l₂ m₁ m₂ : List α} (h : l₁ ++ l₂ = m₁ ++ m₂)
    (hl₁ : ∀ b ∈ l₁, p b = false) (hl₂ : ∀ b ∈ l₂, p b = true) (hm₁ : ∀ b ∈ m₁, p b = false)
    (hm₂ : ∀ b ∈ m₂, p b = true) : l₁ = m₁ ∧ l₂ = m₂ := by
  have refused : ∀ {l : List α}, (∀ b ∈ l, p b = false) →
      l.filter p = [] ∧ l.filter (fun b => !p b) = l := fun hl =>
    ⟨List.filter_eq_nil_iff.mpr (by simpa using hl), List.filter_eq_self.mpr (by simpa using hl)⟩
  have accepted : ∀ {l : List α}, (∀ b ∈ l, p b = true) →
      l.filter p = l ∧ l.filter (fun b => !p b) = [] := fun hl =>
    ⟨List.filter_eq_self.mpr hl, List.filter_eq_nil_iff.mpr (by simpa using hl)⟩
  have hfront := congrArg (List.filter fun b => !p b) h
  have hback := congrArg (List.filter p) h
  simp only [List.filter_append, (refused hl₁).1, (refused hl₁).2, (refused hm₁).1,
    (refused hm₁).2, (accepted hl₂).1, (accepted hl₂).2, (accepted hm₂).1, (accepted hm₂).2,
    List.append_nil, List.nil_append] at hfront hback
  exact ⟨hfront, hback⟩

/-- Sorting puts the last of the greatest items last. -/
theorem mergeSort_max (trans : ∀ a b c, le a b = true → le b c = true → le a c = true)
    (total : ∀ a b, (le a b || le b a) = true) {x : α} {front back : List α}
    (hfront : ∀ a ∈ front, le a x = true) (hback : ∀ b ∈ back, le x b = false) :
    (front ++ x :: back).mergeSort le = (front ++ back).mergeSort le ++ [x] := by
  have later : ∀ {a : α} {l l₁ l₂ : List α}, l.mergeSort le = l₁ ++ a :: l₂ →
      ∀ b ∈ l₂, le a b = true := by
    intro a l l₁ l₂ hsorted b hb
    have hpairs := List.pairwise_mergeSort trans total l
    rw [hsorted] at hpairs
    exact (List.pairwise_cons.mp (List.pairwise_append.mp hpairs).2.1).1 b hb
  induction front with
  | nil =>
    obtain ⟨l₁, l₂, hsorted, hrest, -⟩ := List.mergeSort_cons trans total x back
    have hnone : l₂ = [] := by
      refine List.eq_nil_iff_forall_not_mem.mpr fun b hb => ?_
      have hmem : b ∈ back := List.mem_mergeSort.mp (hrest ▸ List.mem_append_right _ hb)
      have hle := later hsorted b hb
      rw [hback b hmem] at hle
      cases hle
    rw [List.nil_append, List.nil_append, hsorted, hrest, hnone, List.append_nil]
  | cons a front ih =>
    obtain ⟨l₁, l₂, hsorted, hrest, hbefore⟩ :=
      List.mergeSort_cons trans total a (front ++ x :: back)
    obtain ⟨m₁, m₂, hsorted', hrest', hbefore'⟩ := List.mergeSort_cons trans total a (front ++ back)
    -- In either sorted list the first item stands before all that it is not greater than, so the
    -- two lists part at the same place.
    have hsame : l₁ ++ l₂ = m₁ ++ (m₂ ++ [x]) := by
      rw [← hrest, ih fun b hb => hfront b (List.mem_cons_of_mem _ hb), hrest', List.append_assoc]
    have hafter : ∀ b ∈ m₂ ++ [x], le a b = true := by
      intro b hb
      rcases List.mem_append.mp hb with hb | hb
      · exact later hsorted' b hb
      · rw [List.mem_singleton.mp hb]
        exact hfront a List.mem_cons_self
    obtain ⟨rfl, rfl⟩ := append_inj_of_test (p := le a) hsame (by simpa using hbefore)
      (later hsorted) (by simpa using hbefore') hafter
    rw [List.cons_append, List.cons_append, hsorted, hsorted', List.append_assoc, List.cons_append]

end sorting

theorem insertionsFrom_append (before l₁ l₂ : List Char) :
    insertionsFrom before (l₁ ++ l₂) =
      insertionsFrom before l₁ ++ insertionsFrom (before ++ l₁) l₂ := by
  induction l₁ generalizing before with
  | nil => rw [List.append_nil]; rfl
  | cons c l₁ ih =>
    simp only [List.cons_append, insertionsFrom, ih, List.append_assoc, List.nil_append]
    split <;> rfl

/-- A character to the left does not matter to lesser ones. -/
theorem insertionsFrom_greater {c : Char} {rest : List Char} (front back : List Char)
    (h : ∀ b ∈ rest, b.toNat < c.toNat) :
    insertionsFrom (front ++ c :: back) rest = insertionsFrom (front ++ back) rest := by
  induction rest generalizing back with
  | nil => rfl
  | cons b rest ih =>
    have hb : b.toNat < c.toNat := h b List.mem_cons_self
    have hrest := ih (back ++ [b]) fun b hb => h b (List.mem_cons_of_mem _ hb)
    have hcount : (front ++ c :: back).countP (fun d => d.toNat ≤ b.toNat) =
        (front ++ back).countP fun d => d.toNat ≤ b.toNat := by
      rw [List.countP_append, List.countP_append, List.countP_cons_of_neg (by simpa using hb)]
    simp only [insertionsFrom, List.append_assoc, List.cons_append, hrest, hcount]

theorem point_le_of_mem {x : Insertion} {before l : List Char} (h : x ∈ insertionsFrom before l) :
    ∃ c ∈ l, x.point = c.toNat := by
  induction l generalizing before with
  | nil => cases h
  | cons c l ih =>
    have later : x ∈ insertionsFrom (before ++ [c]) l → ∃ b ∈ c :: l, x.point = b.toNat := by
      intro hx
      obtain ⟨b, hb, hpoint⟩ := ih hx
      exact ⟨b, List.mem_cons_of_mem _ hb, hpoint⟩
    simp only [insertionsFrom] at h
    split at h
    · exact later h
    · rcases List.mem_cons.mp h with rfl | h
      · exact ⟨c, List.mem_cons_self, rfl⟩
      · exact later h

/-- The last step of a label puts in the last of its greatest characters. -/
theorem insertions_max {front back : List Char} {c : Char} (hc : 128 ≤ c.toNat)
    (hfront : ∀ b ∈ front, b.toNat ≤ c.toNat) (hback : ∀ b ∈ back, b.toNat < c.toNat) :
    insertions (front ++ c :: back) =
      insertions (front ++ back) ++ [⟨c.toNat, front.length⟩] := by
  have hcount : front.countP (fun b => b.toNat ≤ c.toNat) = front.length :=
    List.countP_eq_length.mpr (by simpa using hfront)
  have hsteps : insertionsFrom [] (front ++ c :: back) =
      insertionsFrom [] front ++ ⟨c.toNat, front.length⟩ :: insertionsFrom front back := by
    have hgreater := insertionsFrom_greater front [] hback
    rw [List.append_nil] at hgreater
    rw [insertionsFrom_append, List.nil_append, insertionsFrom, if_neg (by omega), hcount, hgreater]
  rw [insertions, hsteps, insertions, insertionsFrom_append, List.nil_append]
  refine mergeSort_max (by simpa using fun a b c => Nat.le_trans)
    (by simpa using fun a b => Nat.le_total _ _) ?_ ?_
  · intro x hx
    obtain ⟨b, hb, hpoint⟩ := point_le_of_mem hx
    simpa [hpoint] using hfront b hb
  · intro x hx
    obtain ⟨b, hb, hpoint⟩ := point_le_of_mem hx
    simpa [hpoint] using hback b hb

/-! ## Labels -/

/-- The ASCII characters of a label. -/
def basic (label : List Char) : List Char := label.filter (·.toNat < 128)

/-- A label with other characters has a last greatest one. -/
theorem exists_max {label : List Char} (h : ∃ c ∈ label, 128 ≤ c.toNat) :
    ∃ front c back, label = front ++ c :: back ∧ 128 ≤ c.toNat ∧
      (∀ b ∈ front, b.toNat ≤ c.toNat) ∧ ∀ b ∈ back, b.toNat < c.toNat := by
  induction label with
  | nil => simp at h
  | cons a label ih =>
    by_cases hlater : ∃ c ∈ label, 128 ≤ c.toNat
    · obtain ⟨front, c, back, rfl, hc, hfront, hback⟩ := ih hlater
      by_cases ha : a.toNat ≤ c.toNat
      · exact ⟨a :: front, c, back, rfl, hc, by simpa [ha] using hfront, hback⟩
      · refine ⟨[], a, front ++ c :: back, rfl, by omega, by simp, fun b hb => ?_⟩
        rcases List.mem_append.mp hb with hb | hb
        · have := hfront b hb
          omega
        · rcases List.mem_cons.mp hb with rfl | hb
          · omega
          · have := hback b hb
            omega
    · obtain ⟨c, hc, hlarge⟩ := h
      rcases List.mem_cons.mp hc with rfl | hc
      · refine ⟨[], c, label, rfl, hlarge, by simp, fun b hb => ?_⟩
        have hb : ¬ 128 ≤ b.toNat := fun hb' => hlater ⟨b, hb, hb'⟩
        omega
      · exact absurd ⟨c, hc, hlarge⟩ hlater

/-- A cursor stands at the start of a label, or behind one of its characters. -/
structure Cursor.Stands (s : Cursor) (label : List Char) : Prop where
  length : s.length = label.length
  place : s.place ≤ s.length
  behind : s.point = 128 ∧ s.place = 0 ∨
    ∃ i c, label[i]? = some c ∧ c.toNat = s.point ∧ s.place = i + 1

/-- From behind the characters of a label the next greatest one is reached. -/
theorem Cursor.Stands.reaches {s : Cursor} {front back : List Char} {c : Char}
    (h : s.Stands (front ++ back)) (hc : 128 ≤ c.toNat) (hfront : ∀ b ∈ front, b.toNat ≤ c.toNat)
    (hback : ∀ b ∈ back, b.toNat < c.toNat) : s.Reaches ⟨c.toNat, front.length⟩ := by
  have hinside : s.place ≤ s.length ∧ front.length ≤ s.length :=
    ⟨h.place, by rw [h.length, List.length_append]; omega⟩
  rcases h.behind with ⟨hpoint, hplace⟩ | ⟨i, d, hd, hpoint, hplace⟩
  · exact ⟨by simpa [hpoint] using hc, by simp [hplace], hinside⟩
  · by_cases hi : i < front.length
    · rw [List.getElem?_append_left hi] at hd
      have hle := hfront d (List.mem_of_getElem? hd)
      exact ⟨by simpa [← hpoint] using hle, by simp only [hplace]; omega, hinside⟩
    · rw [List.getElem?_append_right (by omega)] at hd
      have hlt := hback d (List.mem_of_getElem? hd)
      exact ⟨by simp only [← hpoint]; omega, by simp only [← hpoint]; omega, hinside⟩

/-- A label in ASCII takes no steps. -/
theorem insertionsFrom_basic {label : List Char} (before : List Char)
    (h : ∀ c ∈ label, c.toNat < 128) : insertionsFrom before label = [] := by
  induction label generalizing before with
  | nil => rfl
  | cons c label ih =>
    rw [insertionsFrom, if_pos (h c List.mem_cons_self)]
    exact ih _ fun b hb => h b (List.mem_cons_of_mem _ hb)

theorem insertIdx_middle (front back : List Char) (c : Char) :
    (front ++ back).insertIdx front.length c = front ++ c :: back := by
  induction front with
  | nil => rfl
  | cons a front ih => simp [ih]

/-- After the steps of a label the label is there. -/
theorem read_write (label : List Char) :
    ((Cursor.start (basic label).length).after (insertions label)).Stands label ∧
      ∀ rest, read (.start (basic label).length) (basic label)
          (write (.start (basic label).length) (insertions label) ++ rest) =
        read ((Cursor.start (basic label).length).after (insertions label)) label rest := by
  -- The induction is on the length: the steps of a label are those of the label without the last of
  -- its greatest characters, and then the step that puts that one in.
  induction hlength : label.length using Nat.strongRecOn generalizing label with
  | ind n ih =>
    by_cases hother : ∃ c ∈ label, 128 ≤ c.toNat
    · obtain ⟨front, c, back, rfl, hc, hfront, hback⟩ := exists_max hother
      have hbasic : basic (front ++ c :: back) = basic (front ++ back) := by
        simp [basic, List.filter_append, show ¬ c.toNat < 128 by omega]
      obtain ⟨hstands, hread⟩ :=
        ih _ (by simp at hlength ⊢; omega) (front ++ back) rfl
      have hreaches := hstands.reaches hc hfront hback
      rw [hbasic, insertions_max hc hfront hback, after_append]
      refine ⟨⟨?_, ?_, .inr ⟨front.length, c, ?_, rfl, rfl⟩⟩, fun rest => ?_⟩
      · simp [Cursor.after, Cursor.advance, hstands.length]
        omega
      · simp [Cursor.after, Cursor.advance, hstands.length]
      · simp
      · rw [write_append, List.append_assoc, hread, read_step hc hreaches, insertIdx_middle]
    · have hascii : ∀ c ∈ label, c.toNat < 128 := by simpa using hother
      have hnone : insertions label = [] := by
        rw [insertions, insertionsFrom_basic [] hascii, List.mergeSort_nil]
      have hbasic : basic label = label := List.filter_eq_self.mpr (by simpa using hascii)
      rw [hnone, hbasic]
      exact ⟨⟨rfl, Nat.zero_le _, .inl ⟨rfl, rfl⟩⟩, fun _ => rfl⟩

/-! ## Reading undoes writing -/

/-- A digit is a lower-case letter or a decimal digit. -/
def isDigit (c : Char) : Bool := c.isLower || c.isDigit

theorem isDigit_digit {n : Nat} (h : n < 36) : isDigit (digit n) = true := by
  revert n
  decide

theorem isDigit_of_mem_number {bias n : Nat} {c : Char} : ∀ {column : Nat},
    c ∈ number bias column n → isDigit c = true := by
  induction n using Nat.strongRecOn with
  | ind n ih =>
    intro column h
    have hpos := threshold_pos bias column
    have hle := threshold_le bias column
    rw [number] at h
    split at h
    · rw [List.mem_singleton.mp h]
      exact isDigit_digit (by omega)
    · have hmod := Nat.mod_lt (n - threshold bias column)
        (show 0 < 36 - threshold bias column by omega)
      rcases List.mem_cons.mp h with rfl | h
      · exact isDigit_digit (by omega)
      · exact ih _ (Nat.lt_of_le_of_lt (Nat.div_le_self _ _) (by omega)) h

theorem isDigit_of_mem_write {s : Cursor} {xs : List Insertion} {c : Char} (h : c ∈ write s xs) :
    isDigit c = true := by
  induction xs generalizing s with
  | nil => cases h
  | cons x xs ih =>
    rw [write] at h
    rcases List.mem_append.mp h with h | h
    · exact isDigit_of_mem_number h
    · exact ih h

theorem isDigit_ne_hyphen {c : Char} (h : isDigit c = true) : (c != '-') = true := by
  rw [bne_iff_ne]
  rintro rfl
  cases h

/-- Behind the last hyphen of a text stand its digits. -/
theorem takeWhile_digits {digits : List Char} (h : ∀ c ∈ digits, isDigit c = true)
    (front : List Char) (hfront : front.head? = none ∨ front.head? = some '-') :
    (digits.reverse ++ front).takeWhile (· != '-') = digits.reverse := by
  rw [List.takeWhile_append_of_pos fun c hc => isDigit_ne_hyphen (h c (List.mem_reverse.mp hc))]
  rcases hfront with hfront | hfront
  · rw [List.head?_eq_none_iff.mp hfront, List.takeWhile_nil, List.append_nil]
  · obtain ⟨rest, rfl⟩ := List.head?_eq_some_iff.mp hfront
    rw [List.takeWhile_cons_of_neg (by simp), List.append_nil]

/-- ASCII characters, with a hyphen behind them if there are some, are told from digits. -/
theorem decode_digits (front : List Char) {digits : List Char}
    (h : ∀ c ∈ digits, isDigit c = true) :
    decode? ((if front.isEmpty then [] else front ++ ['-']) ++ digits) =
      read (.start front.length) front digits := by
  cases front with
  | nil =>
    have htake := takeWhile_digits h [] (.inl rfl)
    rw [List.append_nil] at htake
    simp [decode?, htake]
  | cons b bs =>
    have hreverse : ((b :: bs ++ ['-']) ++ digits).reverse =
        digits.reverse ++ '-' :: (b :: bs).reverse := by simp
    have htake := takeWhile_digits h ('-' :: (b :: bs).reverse) (.inr rfl)
    have hlength : ((b :: bs ++ ['-']) ++ digits).length - digits.length - 1 =
        (b :: bs).length := by
      simp only [List.length_append, List.length_cons, List.length_nil]
      omega
    simp only [decode?, List.isEmpty_cons, Bool.false_eq_true, if_false, hreverse, htake,
      List.reverse_reverse, hlength]
    rw [List.append_assoc, List.take_left]

/-- The label is read that was written. -/
theorem decode_encode (label : List Char) : decode? (encode label) = some label := by
  have hdigits : ∀ c ∈ write (.start (basic label).length) (insertions label), isDigit c = true :=
    fun c => isDigit_of_mem_write
  have hread := (read_write label).2 []
  rw [List.append_nil] at hread
  calc decode? (encode label)
      = read (.start (basic label).length) (basic label)
          (write (.start (basic label).length) (insertions label)) := decode_digits _ hdigits
    _ = some label := by rw [hread, read]

/-- An ASCII form has the ASCII characters of its label, hyphens and digits. -/
theorem mem_encode {label : List Char} {c : Char} (h : c ∈ encode label) :
    c ∈ basic label ∨ c = '-' ∨ isDigit c = true := by
  rcases List.mem_append.mp h with h | h
  · split at h
    · cases h
    · rcases List.mem_append.mp h with h | h
      · exact .inl h
      · exact .inr (.inl (List.mem_singleton.mp h))
  · exact .inr (.inr (isDigit_of_mem_write h))

end MessageBus.Punycode
