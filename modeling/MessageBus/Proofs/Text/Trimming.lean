import Mathlib.Data.List.DropRight
import Mathlib.Data.List.TakeWhile
import MessageBus.Text.Blank
import MessageBus.Text.Bytes

/-! # Trimming

    Texts and bodies are trimmed alike, of the blanks of Unicode the ones, of the
    blanks of ASCII the others.  What stands between blanks and has none itself
    comes out as it is.

    * `stripped_padded`: what is left, whatever counts as blank.
    * `Text.trimChars_padded`, `Bytes.trim_padded`: of texts and of bodies.
    * `Text.trimChars_trimChars`: once is enough. -/

namespace MessageBus

/-- Between elements that are dropped at both ends, the others are left. -/
theorem stripped_padded {α : Type} {p : α → Bool} {left inner right : List α}
    (hleft : ∀ a ∈ left, p a = true) (hinner : ∀ a ∈ inner, p a = false)
    (hright : ∀ a ∈ right, p a = true) :
    ((left ++ inner ++ right).dropWhile p).rdropWhile p = inner := by
  have hreverse : ∀ a ∈ right.reverse, p a = true :=
    fun a ha => hright a (List.mem_reverse.mp ha)
  rw [List.append_assoc, List.dropWhile_append_of_pos hleft]
  cases inner with
  | nil =>
    rw [List.nil_append, List.dropWhile_eq_nil_iff.mpr hright]
    rfl
  | cons first rest =>
    have hfirst : ¬ p first = true := by simp [hinner first (List.mem_cons_self ..)]
    have hstays : (first :: rest).rdropWhile p = first :: rest :=
      List.rdropWhile_eq_self_iff.mpr fun h => by simp [hinner _ (List.getLast_mem h)]
    rw [List.cons_append, List.dropWhile_cons_of_neg hfirst, ← List.cons_append, List.rdropWhile,
      List.reverse_append, List.dropWhile_append_of_pos hreverse]
    exact hstays

namespace Text

variable {left cs right : List Char}

/-- Blanks at the ends are all that trimming takes away. -/
theorem trimChars_padded (hleft : ∀ c ∈ left, isBlank c = true)
    (hcs : ∀ c ∈ cs, isBlank c = false) (hright : ∀ c ∈ right, isBlank c = true) :
    trimChars (left ++ cs ++ right) = cs :=
  stripped_padded hleft hcs hright

/-- A text without blanks at its ends is trimmed already. -/
theorem trimChars_eq_self (hfirst : ∀ h : 0 < cs.length, ¬ isBlank cs[0] = true)
    (hlast : ∀ h : cs ≠ [], ¬ isBlank (cs.getLast h) = true) : trimChars cs = cs := by
  rw [trimChars, List.dropWhile_eq_self_iff.mpr hfirst]
  exact List.rdropWhile_eq_self_iff.mpr hlast

/-- What is left at the end leaves the beginning as it is. -/
theorem trimChars_trimChars (cs : List Char) : trimChars (trimChars cs) = trimChars cs := by
  apply trimChars_eq_self
  · intro h
    have hprefix : trimChars cs <+: cs.dropWhile isBlank := List.rdropWhile_prefix isBlank _
    have hpos : 0 < (cs.dropWhile isBlank).length := Nat.lt_of_lt_of_le h hprefix.length_le
    have hzero : (trimChars cs)[0] = (cs.dropWhile isBlank)[0] := hprefix.getElem h
    rw [hzero]
    exact List.dropWhile_get_zero_not isBlank cs hpos
  · intro h
    exact List.rdropWhile_last_not isBlank (cs.dropWhile isBlank) h

end Text

namespace Bytes

variable {left body right bytes : Bytes}

theorem isBlank_iff {b : UInt8} : isBlank b = true ↔ b ∈ [0x20, 0x09, 0x0A, 0x0D, 0x0C] := by
  simp [isBlank, or_assoc]

/-- Blanks around a body are all that trimming takes away. -/
theorem trim_padded (hleft : ∀ b ∈ left, isBlank b = true)
    (hbody : ∀ b ∈ body, isBlank b = false) (hright : ∀ b ∈ right, isBlank b = true) :
    trim (left ++ body ++ right) = body :=
  stripped_padded hleft hbody hright

/-- Of blanks alone nothing is left. -/
theorem trim_blank (h : ∀ b ∈ bytes, isBlank b = true) : trim bytes = [] := by
  rw [trim, List.dropWhile_eq_nil_iff.mpr h]
  rfl

/-- Trimming takes away blanks at both ends and nothing else. -/
theorem exists_padding (bytes : Bytes) :
    ∃ left right, (∀ b ∈ left, isBlank b = true) ∧ (∀ b ∈ right, isBlank b = true) ∧
      bytes = left ++ trim bytes ++ right := by
  refine ⟨bytes.takeWhile isBlank, ((bytes.dropWhile isBlank).reverse.takeWhile isBlank).reverse,
    fun b hb => List.mem_takeWhile_imp hb,
    fun b hb => List.mem_takeWhile_imp (List.mem_reverse.mp hb), ?_⟩
  rw [trim, List.append_assoc, ← List.reverse_append, List.takeWhile_append_dropWhile,
    List.reverse_reverse, List.takeWhile_append_dropWhile]

end Bytes

end MessageBus
