/-!
# Blank characters

`isBlank` is the Unicode property White_Space, and `trim` removes such characters from both ends
of a text.  The zero-width space and the byte order mark do not have the property.

## Main statements

* `mem_of_mem_trimChars` : trimming adds no characters.
* `isBlank_of_isWhitespace` : every blank of core's class is one here.
-/

namespace MessageBus.Text

/-- Whether a character has the Unicode property White_Space. -/
def isBlank (c : Char) : Bool :=
  let n := c.toNat
  (9 ≤ n && n ≤ 13) || n == 0x20 || n == 0x85 || n == 0xA0 || n == 0x1680
    || (0x2000 ≤ n && n ≤ 0x200A) || n == 0x2028 || n == 0x2029 || n == 0x202F || n == 0x205F
    || n == 0x3000

/-- The characters without blanks at either end. -/
def trimChars (cs : List Char) : List Char :=
  ((cs.dropWhile isBlank).reverse.dropWhile isBlank).reverse

/-- The text without blanks at either end. -/
def trim (s : String) : String :=
  String.ofList (trimChars s.toList)

theorem mem_of_mem_dropWhile {p : Char → Bool} {c : Char} {cs : List Char}
    (h : c ∈ cs.dropWhile p) : c ∈ cs :=
  (List.dropWhile_sublist p).subset h

theorem mem_of_mem_trimChars {c : Char} {cs : List Char} (h : c ∈ trimChars cs) : c ∈ cs := by
  have h := mem_of_mem_dropWhile (List.mem_reverse.1 h)
  exact mem_of_mem_dropWhile (List.mem_reverse.1 h)

theorem isBlank_of_isWhitespace (c : Char) (h : c.isWhitespace = true) : isBlank c = true := by
  simp only [Char.isWhitespace, Bool.or_eq_true, decide_eq_true_eq] at h
  rcases h with ((h | h) | h) | h <;> subst h <;> decide

end MessageBus.Text
