import MessageBus.Text.Base64

/-! # Encoded bytes are decoded

    An encoded text is a run of groups of four symbols, of which only the last
    one may end in padding.  The checks of the decoder let exactly such a text
    pass, and the values of its symbols make up the bytes again.

    * `encodeBytes_split`: the groups of an encoded text.
    * `decode_encodeBytes`: decoding gives the bytes back. -/

namespace MessageBus.Base64

/-! ## Symbols -/

theorem value_symbol : ∀ n < 64, value? (symbol n) = some n := by decide

theorem symbol_ne_pad : ∀ n < 64, symbol n ≠ pad := by decide

theorem value_pad : value? pad = none := by decide

/-- The four bytes that a text ends in: symbols, of which the last one has no
    bits left over, and padding. -/
inductive LastGroup : Bytes → Prop where
  | four {a b c d : Nat} : a < 64 → b < 64 → c < 64 → d < 64 →
      LastGroup [symbol a, symbol b, symbol c, symbol d]
  | three {a b c : Nat} : a < 64 → b < 64 → c < 64 → c % 4 = 0 →
      LastGroup [symbol a, symbol b, symbol c, pad]
  | two {a b : Nat} : a < 64 → b < 64 → b % 16 = 0 → LastGroup [symbol a, symbol b, pad, pad]

theorem LastGroup.length {group : Bytes} (h : LastGroup group) : group.length = 4 := by
  cases h <;> rfl

/-- Groups of symbols alone. -/
structure Groups (front : Bytes) : Prop where
  whole : front.length % 4 = 0
  symbols : ∀ b ∈ front, (value? b).isSome = true

/-- An encoded text is groups of symbols and a last group. -/
theorem encodeBytes_split (bytes : Bytes) (h : bytes ≠ []) :
    ∃ front group, encodeBytes bytes = front ++ group ∧ Groups front ∧ LastGroup group := by
  fun_induction encodeBytes bytes with
  | case1 a b c rest n ih =>
    have ha := a.toNat_lt
    have hb := b.toNat_lt
    have hc := c.toNat_lt
    have hn : n < 16777216 := by omega
    cases rest with
    | nil =>
      refine ⟨[], _, rfl, ⟨rfl, by simp⟩, ?_⟩
      exact .four (by omega) (by omega) (by omega) (by omega)
    | cons d rest =>
      obtain ⟨front, group, heq, hfront, hgroup⟩ := ih (by simp)
      refine ⟨symbol (n / 262144) :: symbol (n / 4096 % 64) :: symbol (n / 64 % 64)
        :: symbol (n % 64) :: front, group, by rw [heq]; rfl, ⟨?_, ?_⟩, hgroup⟩
      · have hwhole := hfront.whole
        simp only [List.length_cons]
        omega
      · intro s hs
        simp only [List.mem_cons] at hs
        rcases hs with rfl | rfl | rfl | rfl | hs
        · rw [value_symbol _ (by omega)]; rfl
        · rw [value_symbol _ (by omega)]; rfl
        · rw [value_symbol _ (by omega)]; rfl
        · rw [value_symbol _ (by omega)]; rfl
        · exact hfront.symbols s hs
  | case2 a b n =>
    have ha := a.toNat_lt
    have hb := b.toNat_lt
    refine ⟨[], _, rfl, ⟨rfl, by simp⟩, ?_⟩
    exact .three (by omega) (by omega) (by omega) (by omega)
  | case3 a n =>
    have ha := a.toNat_lt
    refine ⟨[], _, rfl, ⟨rfl, by simp⟩, ?_⟩
    exact .two (by omega) (by omega) (by omega)
  | case4 => exact absurd rfl h

/-! ## The checks -/

theorem badSymbol_none {front : Bytes} (h : ∀ b ∈ front, (value? b).isSome = true)
    (offset : Nat) : badSymbol? offset front = none := by
  induction front generalizing offset with
  | nil => rfl
  | cons b rest ih =>
    obtain ⟨v, hv⟩ := Option.isSome_iff_exists.mp (h b (List.mem_cons_self ..))
    rw [badSymbol?, hv]
    exact ih (fun c hc => h c (List.mem_cons_of_mem _ hc)) (offset + 1)

/-- How many symbols a last group has. -/
def symbols (group : Bytes) : Nat := (group.takeWhile (· != pad)).length

/-- The number that the value of the last of some symbols has to be a multiple
    of, so that no bit is left over. -/
def unused : Nat → Nat
  | 2 => 16
  | 3 => 4
  | _ => 1

theorem badGroup_none {group : Bytes} (h : LastGroup group) (start : Nat) :
    badGroup? start 0 none group = none := by
  cases h with
  | four ha hb hc hd =>
    simp [badGroup?, symbol_ne_pad _ ha, symbol_ne_pad _ hb, symbol_ne_pad _ hc,
      symbol_ne_pad _ hd, value_symbol _ ha, value_symbol _ hb, value_symbol _ hc,
      value_symbol _ hd]
  | three ha hb hc _ =>
    simp [badGroup?, symbol_ne_pad _ ha, symbol_ne_pad _ hb, symbol_ne_pad _ hc,
      value_symbol _ ha, value_symbol _ hb, value_symbol _ hc]
  | two ha hb _ =>
    simp [badGroup?, symbol_ne_pad _ ha, symbol_ne_pad _ hb, value_symbol _ ha,
      value_symbol _ hb]

theorem symbols_three {a b c : Nat} (ha : a < 64) (hb : b < 64) (hc : c < 64) :
    symbols [symbol a, symbol b, symbol c, pad] = 3 := by
  simp [symbols, symbol_ne_pad _ ha, symbol_ne_pad _ hb, symbol_ne_pad _ hc]

theorem symbols_two {a b : Nat} (ha : a < 64) (hb : b < 64) :
    symbols [symbol a, symbol b, pad, pad] = 2 := by
  simp [symbols, symbol_ne_pad _ ha, symbol_ne_pad _ hb]

/-- A last group has at least two symbols, and no bits are left over. -/
theorem LastGroup.no_rest {group : Bytes} (h : LastGroup group) :
    2 ≤ symbols group ∧
      ((value? (group.getD (symbols group - 1) 0)).getD 0) % unused (symbols group) = 0 := by
  cases h with
  | @four a b c d ha hb hc hd =>
    have hs : symbols [symbol a, symbol b, symbol c, symbol d] = 4 := by
      simp [symbols, symbol_ne_pad _ ha, symbol_ne_pad _ hb, symbol_ne_pad _ hc,
        symbol_ne_pad _ hd]
    rw [hs]
    exact ⟨by decide, Nat.mod_one _⟩
  | @three a b c ha hb hc hrest =>
    rw [symbols_three ha hb hc]
    refine ⟨by decide, ?_⟩
    simpa [unused, value_symbol _ hc] using hrest
  | @two a b ha hb hrest =>
    rw [symbols_two ha hb]
    refine ⟨by decide, ?_⟩
    simpa [unused, value_symbol _ hb] using hrest

/-- Whatever ends in a last group passes every check. -/
theorem error_none {front group : Bytes} (hf : Groups front) (hg : LastGroup group) :
    error? (front ++ group) = none := by
  have hwhole := hf.whole
  have hlen : (front ++ group).length = front.length + 4 := by
    rw [List.length_append, hg.length]
  have hstart : lastGroup (front.length + 4) = front.length := by
    rw [lastGroup, if_pos (by omega)]
    omega
  -- a text of whole groups is never one symbol too long
  have hmod : (front.length + 4) % 4 ≠ 1 := by omega
  obtain ⟨htwo, hrest⟩ := hg.no_rest
  have htwo' : ¬ (0 < front.length + 4 ∧ symbols group < 2) := by omega
  unfold error?
  simp only [hlen, hstart, List.take_left, List.drop_left, badSymbol_none hf.symbols,
    badGroup_none hg, hg.length]
  unfold symbols at htwo' hrest
  rw [if_neg htwo', if_neg (by decide), if_neg fun hne => hne hrest]
  split
  · rw [if_neg fun h => hmod h.1]
    rfl
  · rfl

/-! ## The bytes -/

/-- Three bytes are the sum of their four sextets. -/
theorem sum_sextets (n : Nat) :
    n / 262144 * 262144 + n / 4096 % 64 * 4096 + n / 64 % 64 * 64 + n % 64 = n := by omega

/-- Two bytes are the sum of their three sextets. -/
theorem sum_sextets_short (n : Nat) : n / 4096 * 4096 + n / 64 % 64 * 64 + n % 64 = n := by omega

theorem decodeValues_encodeBytes (bytes : Bytes) :
    decodeValues ((encodeBytes bytes).filterMap value?) = bytes := by
  have hbyte : ∀ (b : UInt8) (n : Nat), n = b.toNat → UInt8.ofNat n = b := by
    rintro b n rfl
    exact UInt8.ofNat_toNat
  fun_induction encodeBytes bytes with
  | case1 a b c rest n ih =>
    have ha := a.toNat_lt
    have hb := b.toNat_lt
    have hc := c.toNat_lt
    have hn : n = a.toNat * 65536 + b.toNat * 256 + c.toNat := rfl
    rw [List.filterMap_cons_some (value_symbol _ (by omega)),
      List.filterMap_cons_some (value_symbol _ (by omega)),
      List.filterMap_cons_some (value_symbol _ (by omega)),
      List.filterMap_cons_some (value_symbol _ (by omega)), decodeValues, sum_sextets, ih,
      hbyte a _ (by omega), hbyte b _ (by omega), hbyte c _ (by omega)]
  | case2 a b n =>
    have ha := a.toNat_lt
    have hb := b.toNat_lt
    have hn : n = a.toNat * 1024 + b.toNat * 4 := rfl
    rw [List.filterMap_cons_some (value_symbol _ (by omega)),
      List.filterMap_cons_some (value_symbol _ (by omega)),
      List.filterMap_cons_some (value_symbol _ (by omega)),
      List.filterMap_cons_none value_pad, List.filterMap_nil, decodeValues, sum_sextets_short,
      hbyte a _ (by omega), hbyte b _ (by omega)]
  | case3 a n =>
    have ha := a.toNat_lt
    have hn : n = a.toNat * 16 := rfl
    have hsum : n / 64 * 64 + n % 64 = n := by omega
    rw [List.filterMap_cons_some (value_symbol _ (by omega)),
      List.filterMap_cons_some (value_symbol _ (by omega)),
      List.filterMap_cons_none value_pad, List.filterMap_cons_none value_pad, List.filterMap_nil,
      decodeValues, hsum, hbyte a _ (by omega)]
  | case4 => rfl

/-- Decoding what was encoded gives the bytes back. -/
theorem decode_encodeBytes (bytes : Bytes) : decode (encodeBytes bytes) = .ok bytes := by
  have hnone : error? (encodeBytes bytes) = none := by
    by_cases h : bytes = []
    · subst h
      rfl
    · obtain ⟨front, group, heq, hf, hg⟩ := encodeBytes_split bytes h
      rw [heq, error_none hf hg]
  simp only [decode, hnone, decodeValues_encodeBytes]

/-! ## As text -/

/-- Every byte of an encoded text is a symbol or padding. -/
theorem mem_encodeBytes {bytes : Bytes} {s : UInt8} (h : s ∈ encodeBytes bytes) :
    (∃ n < 64, s = symbol n) ∨ s = pad := by
  fun_induction encodeBytes bytes with
  | case1 a b c rest n ih =>
    have ha := a.toNat_lt
    have hb := b.toNat_lt
    have hc := c.toNat_lt
    have hn : n = a.toNat * 65536 + b.toNat * 256 + c.toNat := rfl
    simp only [List.mem_cons] at h
    rcases h with rfl | rfl | rfl | rfl | h
    · exact .inl ⟨_, by omega, rfl⟩
    · exact .inl ⟨_, by omega, rfl⟩
    · exact .inl ⟨_, by omega, rfl⟩
    · exact .inl ⟨_, by omega, rfl⟩
    · exact ih h
  | case2 a b n =>
    have ha := a.toNat_lt
    have hb := b.toNat_lt
    have hn : n = a.toNat * 1024 + b.toNat * 4 := rfl
    simp only [List.mem_cons, List.not_mem_nil, or_false] at h
    rcases h with rfl | rfl | rfl | rfl
    · exact .inl ⟨_, by omega, rfl⟩
    · exact .inl ⟨_, by omega, rfl⟩
    · exact .inl ⟨_, by omega, rfl⟩
    · exact .inr rfl
  | case3 a n =>
    have ha := a.toNat_lt
    have hn : n = a.toNat * 16 := rfl
    simp only [List.mem_cons, List.not_mem_nil, or_false] at h
    rcases h with rfl | rfl | rfl | rfl
    · exact .inl ⟨_, by omega, rfl⟩
    · exact .inl ⟨_, by omega, rfl⟩
    · exact .inr rfl
    · exact .inr rfl
  | case4 => cases h

theorem utf8EncodeChar_symbol :
    ∀ n < 64, String.utf8EncodeChar (Char.ofNat (symbol n).toNat) = [symbol n] := by decide

theorem utf8EncodeChar_pad : String.utf8EncodeChar (Char.ofNat pad.toNat) = [pad] := by decide

theorem utf8_ofList (cs : List Char) :
    utf8 (String.ofList cs) = cs.flatMap String.utf8EncodeChar := by
  simp [utf8, String.toByteArray_ofList, List.utf8Encode]

/-- The characters of an encoded text are single bytes. -/
theorem utf8_encode (bytes : Bytes) : utf8 (encode bytes) = encodeBytes bytes := by
  have hsingle : ∀ s ∈ encodeBytes bytes, String.utf8EncodeChar (Char.ofNat s.toNat) = [s] := by
    intro s hs
    rcases mem_encodeBytes hs with ⟨n, hn, rfl⟩ | rfl
    · exact utf8EncodeChar_symbol n hn
    · exact utf8EncodeChar_pad
  rw [encode, utf8_ofList, List.flatMap_map]
  -- only this is needed of the encoded text
  generalize encodeBytes bytes = text at hsingle
  induction text with
  | nil => rfl
  | cons s rest ih =>
    rw [List.flatMap_cons, hsingle s (List.mem_cons_self ..),
      ih fun t ht => hsingle t (List.mem_cons_of_mem _ ht)]
    rfl

theorem isBlank_symbol : ∀ n < 64, Bytes.isBlank (symbol n) = false := by decide

theorem symbol_ne_brace : ∀ n < 64, symbol n ≠ 0x7B := by decide

/-- An encoded text has no blanks, and no brace either. -/
theorem plain_encodeBytes {bytes : Bytes} {s : UInt8} (h : s ∈ encodeBytes bytes) :
    Bytes.isBlank s = false ∧ s ≠ 0x7B := by
  rcases mem_encodeBytes h with ⟨n, hn, rfl⟩ | rfl
  · exact ⟨isBlank_symbol n hn, symbol_ne_brace n hn⟩
  · decide

end MessageBus.Base64
