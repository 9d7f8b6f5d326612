/-!
# Cutting texts

`cut` cuts a list at every item that is a separator, and `cutFirst?` and `cutLast?` only at the
first and at the last of them.

## Main statements

* `length_cut` : there is one piece more than separators.
* `eq_of_cutFirst?` : a cut loses nothing but the separator.
* `cutFirst?_append`, `not_separator_of_cutFirst?` : the cut is at the first separator.
-/

namespace MessageBus.Text

variable {α : Type}

/-- The pieces between separators; a list without any is one piece. -/
def cut (isSeparator : α → Bool) : List α → List (List α)
  | [] => [[]]
  | x :: xs =>
    if isSeparator x then [] :: cut isSeparator xs
    else match cut isSeparator xs with
      | piece :: pieces => (x :: piece) :: pieces
      | [] => [[x]]

/-- What stands before and after the first separator. -/
def cutFirst? (isSeparator : α → Bool) : List α → Option (List α × List α)
  | [] => none
  | x :: xs =>
    if isSeparator x then some ([], xs)
    else (cutFirst? isSeparator xs).map fun (before, after) => (x :: before, after)

/-- What stands before and after the last separator. -/
def cutLast? (isSeparator : α → Bool) (xs : List α) : Option (List α × List α) :=
  (cutFirst? isSeparator xs.reverse).map fun (after, before) => (before.reverse, after.reverse)

theorem cut_ne_nil (p : α → Bool) (xs : List α) : cut p xs ≠ [] := by
  cases xs with
  | nil => simp [cut]
  | cons x xs =>
    unfold cut
    split
    · simp
    · split <;> simp

theorem length_cut (p : α → Bool) (xs : List α) : (cut p xs).length = xs.countP p + 1 := by
  induction xs with
  | nil => rfl
  | cons x xs ih =>
    by_cases h : p x = true
    · simp [cut, h, ih]
    · have hx : p x = false := by simpa using h
      have ne := cut_ne_nil p xs
      simp only [cut, hx]
      cases e : cut p xs with
      | nil => exact absurd e ne
      | cons piece pieces => simpa [hx, e] using ih

theorem eq_of_cutFirst? {p : α → Bool} {xs before after : List α}
    (h : cutFirst? p xs = some (before, after)) :
    ∃ x, p x = true ∧ xs = before ++ x :: after := by
  induction xs generalizing before with
  | nil => simp [cutFirst?] at h
  | cons x xs ih =>
    by_cases hx : p x = true
    · simp [cutFirst?, hx] at h
      obtain ⟨rfl, rfl⟩ := h
      exact ⟨x, hx, rfl⟩
    · have hx : p x = false := by simpa using hx
      simp only [cutFirst?, hx, Bool.false_eq_true, if_false, Option.map_eq_some_iff] at h
      obtain ⟨⟨b, a⟩, hb, heq⟩ := h
      cases heq
      obtain ⟨y, hy, e⟩ := ih hb
      exact ⟨y, hy, by rw [e]; rfl⟩

/-- A list is cut at its first separator. -/
theorem cutFirst?_append {p : α → Bool} {before : List α} (h : ∀ y ∈ before, p y = false) {x : α}
    (hx : p x = true) (after : List α) :
    cutFirst? p (before ++ x :: after) = some (before, after) := by
  induction before with
  | nil => simp [cutFirst?, hx]
  | cons y before ih =>
    have hy : p y = false := h y (List.mem_cons_self ..)
    simp [cutFirst?, hy, ih fun z hz => h z (List.mem_cons_of_mem _ hz)]

/-- Nothing before a cut is a separator. -/
theorem not_separator_of_cutFirst? {p : α → Bool} {xs before after : List α}
    (h : cutFirst? p xs = some (before, after)) : ∀ y ∈ before, p y = false := by
  induction xs generalizing before with
  | nil => simp [cutFirst?] at h
  | cons x xs ih =>
    by_cases hx : p x = true
    · simp [cutFirst?, hx] at h
      obtain ⟨rfl, rfl⟩ := h
      simp
    · have hx : p x = false := by simpa using hx
      simp only [cutFirst?, hx, Bool.false_eq_true, if_false, Option.map_eq_some_iff] at h
      obtain ⟨⟨b, a⟩, hb, heq⟩ := h
      cases heq
      intro y hy
      rcases List.mem_cons.mp hy with rfl | hy
      · exact hx
      · exact ih hb y hy

end MessageBus.Text
