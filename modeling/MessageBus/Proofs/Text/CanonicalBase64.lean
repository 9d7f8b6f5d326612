import Mathlib.Data.List.Basic
import Mathlib.Data.Option.Basic
import MessageBus.Proofs.Text.Base64

/-! # Only encoded bytes are decoded

    The decoder is strict: it wants padding, and no bit left over in the last
    symbol.  So a text that passes its checks is a run of groups of symbols with
    a last group, and the bytes that such a text stands for are encoded as that
    very text.  Every sequence of bytes has one text, and every other text is
    refused.

    * `split_of_error_none`: what the checks let pass.
    * `encodeBytes_of_decode`: a text that is decoded is the encoding of what
      comes out. -/

namespace MessageBus.Base64

/-! ## Symbols -/

/-- Whether a byte is one of the symbols. -/
def IsSymbol (s : UInt8) : Prop := ∃ n < 64, s = symbol n

/-- Only a symbol has a value. -/
theorem isSymbol_of_value {s : UInt8} (h : (value? s).isSome = true) : IsSymbol s := by
  have hall : ∀ k < 256, (value? (UInt8.ofNat k)).isSome = true →
      ∃ n < 64, UInt8.ofNat k = symbol n := by decide +kernel
  have hs := hall s.toNat s.toNat_lt
  rw [UInt8.ofNat_toNat] at hs
  exact hs h

theorem isSymbol_of_not_isNone {s : UInt8} (h : ¬ (value? s).isNone = true) : IsSymbol s :=
  isSymbol_of_value (by simpa [Option.isSome_iff_ne_none] using h)

/-! ## What the checks let pass -/

theorem isSymbol_of_badSymbol_none {front : Bytes} {offset : Nat}
    (h : badSymbol? offset front = none) : ∀ s ∈ front, IsSymbol s := by
  induction front generalizing offset with
  | nil =>
    intro s hs
    cases hs
  | cons s rest ih =>
    rw [badSymbol?] at h
    split at h
    · cases h
    · next hs =>
      intro t ht
      rcases List.mem_cons.mp ht with rfl | ht
      · exact isSymbol_of_not_isNone hs
      · exact ih h t ht

/-- What may stand at a place of the last group where no padding came before. -/
theorem badGroup_cons {start position : Nat} {s : UInt8} {rest : Bytes}
    (h : badGroup? start position none (s :: rest) = none) :
    (2 ≤ position ∧ s = pad ∧ badGroup? start (position + 1) (some position) rest = none) ∨
      (IsSymbol s ∧ badGroup? start (position + 1) none rest = none) := by
  rw [badGroup?] at h
  split at h
  · next hpad =>
    split at h
    · cases h
    · next hposition => exact .inl ⟨Nat.le_of_not_lt hposition, hpad, h⟩
  · split at h
    · cases h
    · next hs => exact .inr ⟨isSymbol_of_not_isNone hs, h⟩

/-- Behind padding there is only padding. -/
theorem badGroup_padded {start position first : Nat} {s : UInt8} {rest : Bytes}
    (h : badGroup? start position (some first) (s :: rest) = none) : s = pad := by
  rw [badGroup?] at h
  split at h
  · next hpad => exact hpad
  · cases h

/-- A group of four begins with two symbols, and padding only ends it. -/
theorem badGroup_cases {start : Nat} {a b c d : UInt8}
    (h : badGroup? start 0 none [a, b, c, d] = none) :
    IsSymbol a ∧ IsSymbol b ∧
      (IsSymbol c ∧ (IsSymbol d ∨ d = pad) ∨ c = pad ∧ d = pad) := by
  obtain ⟨hposition, -, -⟩ | ⟨ha, h⟩ := badGroup_cons h
  · cases hposition
  obtain ⟨hposition, -, -⟩ | ⟨hb, h⟩ := badGroup_cons h
  · exact absurd hposition (by decide)
  refine ⟨ha, hb, ?_⟩
  obtain ⟨-, hc, h⟩ | ⟨hc, h⟩ := badGroup_cons h
  · exact .inr ⟨hc, badGroup_padded h⟩
  · obtain ⟨-, hd, -⟩ | ⟨hd, -⟩ := badGroup_cons h
    · exact .inl ⟨hc, .inr hd⟩
    · exact .inl ⟨hc, .inl hd⟩

/-- A group of four that has no bits left over is a last group. -/
theorem lastGroup_of_badGroup_none {start : Nat} {group : Bytes} (hlength : group.length = 4)
    (h : badGroup? start 0 none group = none)
    (hrest : ((value? (group.getD (symbols group - 1) 0)).getD 0) % unused (symbols group) = 0) :
    LastGroup group := by
  obtain ⟨a, b, c, d, rfl⟩ := List.length_eq_four.mp hlength
  obtain ⟨⟨a, ha, rfl⟩, ⟨b, hb, rfl⟩, hcd⟩ := badGroup_cases h
  rcases hcd with ⟨⟨c, hc, rfl⟩, ⟨d, hd, rfl⟩ | rfl⟩ | ⟨rfl, rfl⟩
  · exact .four ha hb hc hd
  · rw [symbols_three ha hb hc] at hrest
    exact .three ha hb hc (by simpa [unused, value_symbol _ hc] using hrest)
  · rw [symbols_two ha hb] at hrest
    exact .two ha hb (by simpa [unused, value_symbol _ hb] using hrest)

/-- A text without a fault is empty or ends in a last group. -/
theorem split_of_error_none {text : Bytes} (h : error? text = none) :
    text = [] ∨ ∃ front group, text = front ++ group ∧ Groups front ∧ LastGroup group := by
  simp only [error?, Option.orElse_eq_none, ite_eq_right_iff, reduceCtorEq, imp_false,
    Decidable.not_not] at h
  obtain ⟨-, hfront, hgroup, -, hwhole, hrest⟩ := h
  -- all that is left over of whole groups would be a last group that is too short
  have hmod : text.length % 4 = 0 := by
    rw [List.length_drop, lastGroup] at hwhole
    split at hwhole <;> omega
  have hstart : lastGroup text.length = text.length - 4 := by rw [lastGroup, if_pos hmod]
  rw [hstart] at hfront hgroup hrest
  rcases Nat.eq_zero_or_pos text.length with hempty | hpos
  · exact .inl (List.length_eq_zero_iff.mp hempty)
  · have hlength : (text.drop (text.length - 4)).length = 4 := by
      rw [List.length_drop]
      omega
    refine .inr ⟨_, _, (List.take_append_drop (text.length - 4) text).symm, ⟨?_, ?_⟩, ?_⟩
    · rw [List.length_take]
      omega
    · intro s hs
      obtain ⟨n, hn, rfl⟩ := isSymbol_of_badSymbol_none hfront s hs
      rw [value_symbol n hn]
      rfl
    · exact lastGroup_of_badGroup_none hlength hgroup hrest

/-! ## The bytes -/

/-- Three bytes that were cut from a number make it up again. -/
theorem sum_bytes {n : Nat} (hn : n < 16777216) :
    (UInt8.ofNat (n / 65536)).toNat * 65536 + (UInt8.ofNat (n / 256 % 256)).toNat * 256
      + (UInt8.ofNat (n % 256)).toNat = n := by
  simp only [UInt8.toNat_ofNat']
  omega

/-- Two bytes that were cut from a number make up all of it but the two bits that
    are left over. -/
theorem sum_bytes_short {n : Nat} (hn : n < 262144) (hrest : n % 4 = 0) :
    (UInt8.ofNat (n / 1024)).toNat * 1024 + (UInt8.ofNat (n / 4 % 256)).toNat * 4 = n := by
  simp only [UInt8.toNat_ofNat']
  omega

/-- The bytes of four sextets are encoded as these sextets. -/
theorem encodeBytes_sextets {a b c d : Nat} (ha : a < 64) (hb : b < 64) (hc : c < 64) (hd : d < 64)
    (rest : List Nat) :
    encodeBytes (decodeValues (a :: b :: c :: d :: rest))
      = symbol a :: symbol b :: symbol c :: symbol d :: encodeBytes (decodeValues rest) := by
  rw [decodeValues, encodeBytes, sum_bytes (by omega)]
  have ha' : (a * 262144 + b * 4096 + c * 64 + d) / 262144 = a := by omega
  have hb' : (a * 262144 + b * 4096 + c * 64 + d) / 4096 % 64 = b := by omega
  have hc' : (a * 262144 + b * 4096 + c * 64 + d) / 64 % 64 = c := by omega
  have hd' : (a * 262144 + b * 4096 + c * 64 + d) % 64 = d := by omega
  rw [ha', hb', hc', hd']

theorem encodeBytes_lastGroup {group : Bytes} (h : LastGroup group) :
    encodeBytes (decodeValues (group.filterMap value?)) = group := by
  cases h with
  | @four a b c d ha hb hc hd =>
    have hvalues : [symbol a, symbol b, symbol c, symbol d].filterMap value? = [a, b, c, d] := by
      simp [value_symbol, ha, hb, hc, hd]
    rw [hvalues, encodeBytes_sextets ha hb hc hd]
    rfl
  | @three a b c ha hb hc hrest =>
    have hvalues : [symbol a, symbol b, symbol c, pad].filterMap value? = [a, b, c] := by
      simp [value_symbol, value_pad, ha, hb, hc]
    rw [hvalues, decodeValues, encodeBytes, sum_bytes_short (by omega) (by omega)]
    have ha' : (a * 4096 + b * 64 + c) / 4096 = a := by omega
    have hb' : (a * 4096 + b * 64 + c) / 64 % 64 = b := by omega
    have hc' : (a * 4096 + b * 64 + c) % 64 = c := by omega
    rw [ha', hb', hc']
  | @two a b ha hb hrest =>
    have hvalues : [symbol a, symbol b, pad, pad].filterMap value? = [a, b] := by
      simp [value_symbol, value_pad, ha, hb]
    rw [hvalues, decodeValues, encodeBytes, UInt8.toNat_ofNat']
    have ha' : (a * 64 + b) / 16 % 2 ^ 8 * 16 / 64 = a := by omega
    have hb' : (a * 64 + b) / 16 % 2 ^ 8 * 16 % 64 = b := by omega
    rw [ha', hb']

/-- What a text of groups stands for is encoded as that text. -/
theorem encodeBytes_decodeValues {front group : Bytes} (hf : Groups front) (hg : LastGroup group) :
    encodeBytes (decodeValues ((front ++ group).filterMap value?)) = front ++ group := by
  match front, hf with
  | [], _ => exact encodeBytes_lastGroup hg
  | [_], hf | [_, _], hf | [_, _, _], hf => exact absurd hf.whole (by simp)
  | s :: t :: u :: v :: front, hf =>
    have hsymbol : ∀ r ∈ s :: t :: u :: v :: front, IsSymbol r :=
      fun r hr => isSymbol_of_value (hf.symbols r hr)
    obtain ⟨a, ha, rfl⟩ := hsymbol s (by simp)
    obtain ⟨b, hb, rfl⟩ := hsymbol t (by simp)
    obtain ⟨c, hc, rfl⟩ := hsymbol u (by simp)
    obtain ⟨d, hd, rfl⟩ := hsymbol v (by simp)
    have hfront : Groups front := by
      refine ⟨?_, fun s hs => hf.symbols s (by simp [hs])⟩
      have hwhole := hf.whole
      simp only [List.length_cons] at hwhole
      omega
    simp only [List.cons_append]
    rw [List.filterMap_cons_some (value_symbol a ha), List.filterMap_cons_some (value_symbol b hb),
      List.filterMap_cons_some (value_symbol c hc), List.filterMap_cons_some (value_symbol d hd),
      encodeBytes_sextets ha hb hc hd, encodeBytes_decodeValues hfront hg]

/-- A text that is decoded is the encoding of what comes out. -/
theorem encodeBytes_of_decode {text bytes : Bytes} (h : decode text = .ok bytes) :
    encodeBytes bytes = text := by
  rw [decode] at h
  split at h
  · cases h
  · next hnone =>
    obtain rfl := Except.ok.inj h
    rcases split_of_error_none hnone with rfl | ⟨front, group, rfl, hf, hg⟩
    · rfl
    · exact encodeBytes_decodeValues hf hg

end MessageBus.Base64
