import MessageBus.Proofs.Text.Base64
import MessageBus.Text.Split
import MessageBus.Url.Percent

/-! # The characters and the pieces of a URL

    The parts of a URL in their written form are ASCII, a byte for each
    character.  What is not in the set that a part encodes is written as it is,
    so writing a part a second time changes nothing.

    * `Percent.encode_eq_self`: what is written already.
    * `Percent.isPlain_of_mem_encode`: what is written of a user name or a
      password.
    * `Text.cut_intercalate`: a joined text is cut into its pieces again. -/

namespace MessageBus

/-! ## ASCII -/

/-- The byte of an ASCII character. -/
def asciiByte (c : Char) : UInt8 := UInt8.ofNat c.toNat

theorem toNat_asciiByte {c : Char} (h : c.toNat < 128) : (asciiByte c).toNat = c.toNat := by
  rw [asciiByte, UInt8.toNat_ofNat']
  omega

theorem utf8EncodeChar_ascii {c : Char} (h : c.toNat < 128) :
    String.utf8EncodeChar c = [asciiByte c] := by
  have hval : c.val.toNat ≤ 127 := Nat.le_of_lt_succ h
  simp only [String.utf8EncodeChar, hval, if_true]
  rfl

/-- A text in ASCII has a byte for each character. -/
theorem utf8_ascii {cs : List Char} (h : ∀ c ∈ cs, c.toNat < 128) :
    utf8 (String.ofList cs) = cs.map asciiByte := by
  rw [Base64.utf8_ofList]
  induction cs with
  | nil => rfl
  | cons c cs ih =>
    rw [List.flatMap_cons, utf8EncodeChar_ascii (h c List.mem_cons_self),
      ih fun d hd => h d (List.mem_cons_of_mem _ hd)]
    rfl

/-! ## Steps that may fail -/

section Steps

variable {ε α β : Type} {f : α → Option β}

theorem exists_of_mapM {xs : List α} {ys : List β} (h : xs.mapM f = some ys) :
    ys.length = xs.length ∧ ∀ y ∈ ys, ∃ x ∈ xs, f x = some y := by
  induction xs generalizing ys with
  | nil =>
    cases h
    simp
  | cons x xs ih =>
    rw [List.mapM_cons] at h
    obtain ⟨y, hy, h⟩ := Option.bind_eq_some_iff.mp h
    obtain ⟨later, hlater, h⟩ := Option.bind_eq_some_iff.mp h
    cases h
    obtain ⟨hlength, hall⟩ := ih hlater
    refine ⟨by simp [hlength], ?_⟩
    intro z hz
    rcases List.mem_cons.mp hz with rfl | hz
    · exact ⟨x, List.mem_cons_self, hy⟩
    · obtain ⟨x', hx', hfx'⟩ := hall z hz
      exact ⟨x', List.mem_cons_of_mem _ hx', hfx'⟩

theorem mapM_eq_self {f : α → Option α} {xs : List α} (h : ∀ x ∈ xs, f x = some x) :
    xs.mapM f = some xs := by
  induction xs with
  | nil => rfl
  | cons x xs ih =>
    rw [List.mapM_cons, h x List.mem_cons_self, ih fun y hy => h y (List.mem_cons_of_mem _ hy)]
    rfl

theorem exists_of_bind {result : Except ε α} {next : α → Except ε β} {b : β}
    (h : result >>= next = .ok b) : ∃ a, result = .ok a ∧ next a = .ok b := by
  cases result with
  | error e => cases h
  | ok a => exact ⟨a, rfl, h⟩

end Steps

/-! ## Percent encoding -/

namespace Percent

variable {encoded : UInt8 → Bool} {cs : List Char}

/-- A character that a part writes as it is. -/
def IsPlain (encoded : UInt8 → Bool) (c : Char) : Prop :=
  c.toNat < 128 ∧ encoded (asciiByte c) = false

/-- What is written already stays as it is. -/
theorem encode_eq_self (h : ∀ c ∈ cs, IsPlain encoded c) : encode encoded cs = cs := by
  rw [encode, utf8_ascii fun c hc => (h c hc).1]
  induction cs with
  | nil => rfl
  | cons c cs ih =>
    obtain ⟨hascii, hplain⟩ := h c List.mem_cons_self
    rw [List.map_cons, List.flatMap_cons, ih fun d hd => h d (List.mem_cons_of_mem _ hd),
      encodeByte, hplain, toNat_asciiByte hascii, Char.ofNat_toNat]
    rfl

/-- A text without percent signs stands for itself. -/
theorem decode_eq_self {bytes : Bytes} (h : 0x25 ∉ bytes) : decode bytes = bytes := by
  induction bytes with
  | nil => rfl
  | cons b rest ih =>
    rw [List.mem_cons, not_or] at h
    have hrest := ih h.2
    unfold decode
    split
    · next heq => exact absurd (List.cons.inj heq).1.symm h.1
    · next heq =>
      obtain ⟨rfl, rfl⟩ := List.cons.inj heq
      rw [hrest]
    · next heq => cases heq

theorem encodeByte_plain : ((List.range 256).all fun n =>
    (encodeByte inUserInfo (UInt8.ofNat n)).all fun c =>
      decide (c.toNat < 128) && !inUserInfo (asciiByte c)) = true := by
  decide +kernel

/-- What is written of a user name or a password is written already. -/
theorem isPlain_of_mem_encode {c : Char} (h : c ∈ encode inUserInfo cs) : IsPlain inUserInfo c := by
  obtain ⟨b, -, hc⟩ := List.mem_flatMap.mp h
  rw [← UInt8.ofNat_toNat (x := b)] at hc
  have hbyte := List.all_eq_true.mp encodeByte_plain b.toNat (List.mem_range.mpr b.toNat_lt)
  have hplain := List.all_eq_true.mp hbyte c hc
  rw [Bool.and_eq_true, decide_eq_true_eq, Bool.not_eq_true'] at hplain
  exact hplain

theorem encode_ne_nil (h : cs ≠ []) : encode encoded cs ≠ [] := by
  obtain ⟨c, rest, rfl⟩ := List.exists_cons_of_ne_nil h
  obtain ⟨b, bytes, hbytes⟩ := List.exists_cons_of_ne_nil (String.utf8EncodeChar_ne_nil (c := c))
  rw [encode, Base64.utf8_ofList, List.flatMap_cons, hbytes, List.cons_append, List.flatMap_cons,
    encodeByte]
  split <;> simp

theorem IsPlain.ne {c d : Char} (h : IsPlain encoded c) (hd : encoded (asciiByte d) = true) :
    c ≠ d := by
  rintro rfl
  rw [h.2] at hd
  cases hd

end Percent

/-! ## Pieces -/

namespace Text

variable {α : Type} {p : α → Bool}

/-- A text without separators is one piece. -/
theorem cut_of_none {xs : List α} (h : ∀ y ∈ xs, p y = false) : cut p xs = [xs] := by
  induction xs with
  | nil => rfl
  | cons y xs ih =>
    simp [cut, h y List.mem_cons_self, ih fun z hz => h z (List.mem_cons_of_mem _ hz)]

theorem cut_append {x : α} (hx : p x = true) {piece : List α} (h : ∀ y ∈ piece, p y = false)
    (rest : List α) : cut p (piece ++ x :: rest) = piece :: cut p rest := by
  induction piece with
  | nil => simp [cut, hx]
  | cons y piece ih =>
    simp [cut, h y List.mem_cons_self, ih fun z hz => h z (List.mem_cons_of_mem _ hz)]

/-- A joined text is cut into its pieces again. -/
theorem cut_intercalate {x : α} (hx : p x = true) {pieces : List (List α)} (hsome : pieces ≠ [])
    (h : ∀ piece ∈ pieces, ∀ y ∈ piece, p y = false) :
    cut p ([x].intercalate pieces) = pieces := by
  induction pieces with
  | nil => exact absurd rfl hsome
  | cons piece pieces ih =>
    have hpiece := h piece List.mem_cons_self
    cases pieces with
    | nil => simpa [List.intercalate] using cut_of_none hpiece
    | cons next pieces =>
      have hrest := ih (List.cons_ne_nil _ _) fun q hq => h q (List.mem_cons_of_mem _ hq)
      rw [List.intercalate_cons_cons, List.append_assoc, List.singleton_append,
        cut_append hx hpiece, hrest]

theorem mem_intercalate {x y : α} {pieces : List (List α)} (h : y ∈ [x].intercalate pieces) :
    y = x ∨ ∃ piece ∈ pieces, y ∈ piece := by
  induction pieces with
  | nil => cases h
  | cons piece pieces ih =>
    cases pieces with
    | nil => exact .inr ⟨piece, by simp, by simpa [List.intercalate] using h⟩
    | cons next pieces =>
      rw [List.intercalate_cons_cons, List.mem_append, List.mem_append, List.mem_singleton] at h
      rcases h with (h | h) | h
      · exact .inr ⟨piece, by simp, h⟩
      · exact .inl h
      · rcases ih h with h | ⟨q, hq, hy⟩
        · exact .inl h
        · exact .inr ⟨q, List.mem_cons_of_mem _ hq, hy⟩

/-- A piece has no separator, and nothing that was not there before. -/
theorem mem_of_mem_cut {xs piece : List α} (h : piece ∈ cut p xs) :
    ∀ y ∈ piece, p y = false ∧ y ∈ xs := by
  induction xs generalizing piece with
  | nil =>
    rw [List.mem_singleton.mp h]
    simp
  | cons x xs ih =>
    have later : piece ∈ cut p xs → ∀ y ∈ piece, p y = false ∧ y ∈ x :: xs := fun hmem y hy =>
      ⟨(ih hmem y hy).1, List.mem_cons_of_mem _ (ih hmem y hy).2⟩
    obtain ⟨first, pieces, hcut⟩ := List.exists_cons_of_ne_nil (cut_ne_nil p xs)
    rw [cut, hcut] at h
    by_cases hx : p x = true
    · rw [if_pos hx, ← hcut] at h
      rcases List.mem_cons.mp h with rfl | h
      · simp
      · exact later h
    · rw [if_neg hx] at h
      rcases List.mem_cons.mp h with rfl | h
      · intro y hy
        rcases List.mem_cons.mp hy with rfl | hy
        · exact ⟨by simpa using hx, List.mem_cons_self⟩
        · have hfirst := ih (hcut ▸ List.mem_cons_self) y hy
          exact ⟨hfirst.1, List.mem_cons_of_mem _ hfirst.2⟩
      · exact later (hcut ▸ List.mem_cons_of_mem _ h)

/-- A list is cut at its last separator. -/
theorem cutLast?_append {x : α} (hx : p x = true) (before : List α) {after : List α}
    (h : ∀ y ∈ after, p y = false) :
    cutLast? p (before ++ x :: after) = some (before, after) := by
  have hreverse : (before ++ x :: after).reverse = after.reverse ++ x :: before.reverse := by simp
  rw [cutLast?, hreverse, cutFirst?_append (fun y hy => h y (List.mem_reverse.mp hy)) hx]
  simp

end Text

end MessageBus
