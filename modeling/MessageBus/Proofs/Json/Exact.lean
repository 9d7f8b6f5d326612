import Mathlib.Algebra.Order.Ring.Int
import Mathlib.Data.List.TakeWhile
import MessageBus.Proofs.Json.Objects

/-! # Values that come back as they are

    The digits of an integer are gathered one by one, so the text of every
    integer of a 64-bit word is read as that integer.  Floating-point numbers
    are put together by one rounded operation and may come back as another
    number.  A value without any of them, the objects of which are in order, is
    read as itself.

    * `Number.read_chars_int`: integers.
    * `reread_exact`, `rereadMembers_exact`: values and objects. -/

namespace MessageBus.Json

open Reader

/-! ## Integers -/

namespace Number

/-- Further digits never make a number smaller. -/
theorem le_ofDigitChars (digits : List Char) (n : Nat) : n ≤ Nat.ofDigitChars 10 digits n := by
  induction digits generalizing n with
  | nil => exact Nat.le_refl n
  | cons c digits ih =>
    rw [Nat.ofDigitChars_cons]
    have hrest := ih (10 * n + (c.toNat - '0'.toNat))
    omega

/-- Digits that fit are gathered without loss. -/
theorem gatherInteger_eq (digits : List Char) (n : Nat)
    (h : Nat.ofDigitChars 10 digits n < wordBound) :
    gatherInteger digits n = ⟨Nat.ofDigitChars 10 digits n, 0, false⟩ := by
  induction digits generalizing n with
  | nil => rfl
  | cons c digits ih =>
    have hnext : n * 10 + digit c = 10 * n + (c.toNat - '0'.toNat) := by
      rw [Nat.mul_comm]
      rfl
    rw [Nat.ofDigitChars_cons, ← hnext] at h ⊢
    -- what was gathered so far is no more than the whole, which fits
    have hfits : n * 10 + digit c < wordBound :=
      Nat.lt_of_le_of_lt (le_ofDigitChars digits _) h
    simp only [gatherInteger, hfits, if_true]
    exact ih _ h

/-- Only zero is written with a zero in front. -/
theorem eq_nil_of_toDigits_zero (n : Nat) {rest : List Char}
    (h : Nat.toDigits 10 n = '0' :: rest) : rest = [] := by
  induction n using Nat.strongRecOn generalizing rest with
  | ind n ih =>
    rw [Nat.toDigits_eq_if (by decide)] at h
    split at h
    · exact (List.cons.inj h).2.symm
    · next hten =>
      cases hfront : Nat.toDigits 10 (n / 10) with
      | nil => exact absurd hfront Nat.toDigits_ne_nil
      | cons c front =>
        rw [hfront, List.cons_append] at h
        obtain rfl := (List.cons.inj h).1
        -- the digits in front of the last would be those of zero
        have hnil : front = [] := ih (n / 10) (by omega) hfront
        have hzero : n / 10 = 0 := by
          rw [← Nat.ofDigitChars_ten_toDigits (n := n / 10), hfront, hnil]
          rfl
        omega

theorem spanDigits_toDigits (n : Nat) :
    spanDigits (Nat.toDigits 10 n) = (Nat.toDigits 10 n, []) := by
  have hall : ∀ c ∈ Nat.toDigits 10 n, c.isDigit = true := digits_toDigits n
  rw [spanDigits, List.takeWhile_eq_self_iff.mpr hall, List.dropWhile_eq_nil_iff.mpr hall]

/-- The digits of a number that fits, behind a sign or not. -/
theorem readRest_toDigits (negative : Bool) {n : Nat} (h : n < wordBound) :
    (match spanDigits (Nat.toDigits 10 n) with
      | ([], _) => none
      | ('0' :: _ :: _, _) => none
      | (digits, rest) => readRest negative (gatherInteger digits 0) rest)
      = ofInteger negative ⟨n, 0, false⟩ := by
  rw [spanDigits_toDigits]
  split
  · next heq => exact absurd (Prod.mk.inj heq).1 Nat.toDigits_ne_nil
  · next heq => cases eq_nil_of_toDigits_zero n (Prod.mk.inj heq).1
  · next heq =>
    obtain ⟨rfl, rfl⟩ := Prod.mk.inj heq
    have hvalue : Nat.ofDigitChars 10 (Nat.toDigits 10 n) 0 = n := Nat.ofDigitChars_ten_toDigits
    rw [gatherInteger_eq _ _ (by rwa [hvalue]), hvalue]
    rfl

theorem read_toDigits {n : Nat} (h : n < wordBound) :
    read? (Nat.toDigits 10 n) = some (int n) := by
  have hminus : ∀ rest, Nat.toDigits 10 n ≠ '-' :: rest := by
    intro rest hcons
    have hdigit := digits_toDigits n '-' (by rw [hcons]; exact List.mem_cons_self ..)
    cases hdigit
  unfold read?
  split
  next heq =>
    split at heq
    · next hcons => exact absurd hcons (hminus _)
    · obtain ⟨rfl, rfl⟩ := Prod.mk.inj heq
      exact readRest_toDigits false h

theorem read_minus_toDigits {n : Nat} (h : n < wordBound) (hpos : n ≠ 0)
    (hsmall : n ≤ wordBound / 2) : read? ('-' :: Nat.toDigits 10 n) = some (int (-n)) := by
  have hword : ¬ (n = 0 ∨ wordBound / 2 < n) := by
    rintro (hzero | hlarge)
    · exact hpos hzero
    · exact absurd hsmall (Nat.not_le.mpr hlarge)
  calc read? ('-' :: Nat.toDigits 10 n)
      = ofInteger true ⟨n, 0, false⟩ := readRest_toDigits true h
    _ = some (int (-n)) := by simp only [ofInteger, Bool.not_true, hword, if_false]; rfl

/-- Whether an integer is one of a signed or an unsigned 64-bit word. -/
def isWord (i : Int) : Bool := -2 ^ 63 ≤ i && i < 2 ^ 64

/-- The text of an integer is read as that integer. -/
theorem read_chars_int {i : Int} (h : isWord i = true) : read? (int i).chars = some (int i) := by
  simp only [isWord, Bool.and_eq_true, decide_eq_true_eq] at h
  have hbound : i.natAbs < wordBound := by
    simp only [wordBound]
    omega
  simp only [chars]
  split
  · next hneg =>
    have hsmall : i.natAbs ≤ wordBound / 2 := by
      simp only [wordBound]
      omega
    rw [read_minus_toDigits hbound (by omega) hsmall]
    congr 2
    omega
  · next hpos =>
    rw [read_toDigits hbound]
    congr 2
    omega

end Number

/-! ## Values -/

mutual

/-- The numbers of the value are integers of 64-bit words, and its objects are
    in order. -/
def Exact : Json → Prop
  | .null | .bool _ | .str _ => True
  | .num (.int i) => Number.isWord i = true
  | .num (.float _) => False
  | .arr items => ExactItems items
  | .obj members => Table.Sorted members ∧ ExactMembers members

/-- Every item is exact. -/
def ExactItems : List Json → Prop
  | [] => True
  | x :: xs => Exact x ∧ ExactItems xs

/-- The value of every member is exact. -/
def ExactMembers : List (String × Json) → Prop
  | [] => True
  | (_, v) :: ms => Exact v ∧ ExactMembers ms

end

mutual

/-- An exact value is read as itself. -/
theorem reread_exact (j : Json) (h : Exact j) : reread? j = some j := by
  match j with
  | .null | .bool _ | .str _ => rfl
  | .num (.int i) =>
    rw [Exact] at h
    simp [reread?, Number.reread?, Number.hasText, Number.read_chars_int h]
  | .num (.float _) => exact absurd h (by simp [Exact])
  | .arr items =>
    rw [Exact] at h
    rw [reread?, rereadItems_exact items h, Option.map_some]
  | .obj members =>
    rw [Exact] at h
    rw [reread?, rereadMembers_exact members h.2, Option.map_some, Table.ofList_eq h.1]

theorem rereadItems_exact (items : List Json) (h : ExactItems items) :
    rereadItems? items = some items := by
  match items with
  | [] => rfl
  | x :: xs =>
    rw [ExactItems] at h
    rw [rereadItems?, reread_exact x h.1, rereadItems_exact xs h.2]
    rfl

theorem rereadMembers_exact (members : List (String × Json)) (h : ExactMembers members) :
    rereadMembers? members = some members := by
  match members with
  | [] => rfl
  | (n, v) :: ms =>
    rw [ExactMembers] at h
    rw [rereadMembers?, reread_exact v h.1, rereadMembers_exact ms h.2]
    rfl

end

end MessageBus.Json
