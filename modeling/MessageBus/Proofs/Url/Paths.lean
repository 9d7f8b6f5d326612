import MessageBus.Proofs.Url.Authority

/-! # The path of a URL

    A path is cut at its slashes, every piece is written with percent signs where
    it has to be, and the pieces are gone through from left to right: a dot
    segment stays where it is or goes one up, any other goes one down.

    * `readPath_slashes`: where a path leads that begins and ends with a slash.
    * `segmentsOf_append`: the segments of a path, part by part.
    * `Percent.encode_injective`: texts without percent signs stay apart.
    * `render_rooted_injective`: the segments of a path can be told from its text. -/

namespace MessageBus

/-! ## Pieces -/

namespace Text

variable {α : Type} {p : α → Bool}

/-- A separator ends the pieces before it. -/
theorem cut_append_separator {x : α} (hx : p x = true) (xs ys : List α) :
    cut p (xs ++ x :: ys) = cut p xs ++ cut p ys := by
  induction xs with
  | nil => simp [cut, hx]
  | cons y xs ih =>
    obtain ⟨piece, pieces, hcut⟩ := List.exists_cons_of_ne_nil (cut_ne_nil p xs)
    rw [List.cons_append, cut, cut, ih, hcut]
    split <;> rfl

end Text

/-! ## Percent signs -/

namespace Percent

variable {encoded : UInt8 → Bool}

theorem encode_append (xs ys : List Char) :
    encode encoded (xs ++ ys) = encode encoded xs ++ encode encoded ys := by
  simp only [encode, Base64.utf8_ofList, List.flatMap_append]

theorem hexValue?_digit : ∀ d < 16,
    Bytes.hexValue? (Char.ofNat (asciiByte (digit d)).toNat) = some d := by decide +kernel

theorem toNat_ofNat_ascii : ∀ n < 128, (Char.ofNat n).toNat = n := by decide

theorem digit_ascii : ∀ d < 16, (digit d).toNat < 128 := by decide +kernel

theorem decode_percent {a b : UInt8} {high low : Nat} (rest : Bytes)
    (ha : Bytes.hexValue? (Char.ofNat a.toNat) = some high)
    (hb : Bytes.hexValue? (Char.ofNat b.toNat) = some low) :
    decode (0x25 :: a :: b :: rest) = UInt8.ofNat (16 * high + low) :: decode rest := by
  simp only [decode, ha, hb]

theorem decode_cons_of_ne {b : UInt8} (h : b ≠ 0x25) (rest : Bytes) :
    decode (b :: rest) = b :: decode rest := by
  rw [decode]
  rintro a c rest rfl
  exact absurd rfl h

/-- The characters that a byte is written with are ASCII, and decoding them gives the byte back. -/
theorem decode_encodeByte {b : UInt8} (hascii : encoded b = false → b.toNat < 128)
    (hb : b ≠ 0x25) (rest : Bytes) :
    (∀ c ∈ encodeByte encoded b, c.toNat < 128) ∧
      decode ((encodeByte encoded b).map asciiByte ++ rest) = b :: decode rest := by
  unfold encodeByte
  have hsplit : 16 * (b.toNat / 16) + b.toNat % 16 = b.toNat := Nat.div_add_mod ..
  have hhigh : b.toNat / 16 < 16 := by
    have := b.toNat_lt
    omega
  have hlow : b.toNat % 16 < 16 := Nat.mod_lt _ (by decide)
  split
  · refine ⟨?_, ?_⟩
    · simp only [List.forall_mem_cons, List.not_mem_nil, false_implies, implies_true, and_true]
      exact ⟨by decide, digit_ascii _ hhigh, digit_ascii _ hlow⟩
    · have hpercent : asciiByte '%' = 0x25 := by decide
      simp only [List.map_cons, List.map_nil, List.cons_append, List.nil_append, hpercent]
      rw [decode_percent rest (hexValue?_digit _ hhigh) (hexValue?_digit _ hlow), hsplit,
        UInt8.ofNat_toNat]
  · next hplain =>
    have hsmall := hascii (by simpa using hplain)
    have hvalid := toNat_ofNat_ascii b.toNat hsmall
    refine ⟨?_, ?_⟩
    · simp only [List.mem_singleton, forall_eq, hvalid]
      exact hsmall
    · rw [List.map_singleton, asciiByte, hvalid, UInt8.ofNat_toNat, List.singleton_append,
        decode_cons_of_ne hb]

/-- No other character has the byte of an ASCII character. -/
theorem asciiByte_notMem_utf8EncodeChar {c d : Char} (hd : d.toNat < 128) (h : c ≠ d) :
    asciiByte d ∉ String.utf8EncodeChar c := by
  have hval : c.val.toNat ≠ d.toNat := fun heq => h (Char.ext (UInt32.toNat_inj.mp heq))
  intro hmem
  simp only [String.utf8EncodeChar] at hmem
  repeat' split at hmem
  all_goals
    simp only [List.mem_cons, List.not_mem_nil, or_false, ← UInt8.toNat_inj,
      UInt8.toNat_ofNat', toNat_asciiByte hd] at hmem
    omega

theorem asciiByte_notMem_utf8 {cs : List Char} {d : Char} (hd : d.toNat < 128) (h : d ∉ cs) :
    asciiByte d ∉ utf8 (String.ofList cs) := by
  rw [Base64.utf8_ofList, List.mem_flatMap]
  rintro ⟨c, hc, hbyte⟩
  refine asciiByte_notMem_utf8EncodeChar hd ?_ hbyte
  rintro rfl
  exact h hc

/-- A text without percent signs can be told from how it is written. -/
theorem decode_encode (hascii : ∀ b, encoded b = false → b.toNat < 128) {cs : List Char}
    (h : '%' ∉ cs) :
    decode (utf8 (String.ofList (encode encoded cs))) = utf8 (String.ofList cs) := by
  have hbytes : asciiByte '%' ∉ utf8 (String.ofList cs) :=
    asciiByte_notMem_utf8 (by decide) h
  unfold encode
  generalize utf8 (String.ofList cs) = bytes at hbytes
  have hwritten : (∀ c ∈ bytes.flatMap (encodeByte encoded), c.toNat < 128) ∧
      decode ((bytes.flatMap (encodeByte encoded)).map asciiByte) = bytes := by
    induction bytes with
    | nil => exact ⟨nofun, rfl⟩
    | cons b bytes ih =>
      rw [List.mem_cons, not_or] at hbytes
      obtain ⟨hall, hdecode⟩ := ih hbytes.2
      obtain ⟨hall', hdecode'⟩ := decode_encodeByte (hascii b) (fun h => hbytes.1 h.symm)
        ((bytes.flatMap (encodeByte encoded)).map asciiByte)
      rw [List.flatMap_cons, List.map_append, hdecode', hdecode, List.forall_mem_append]
      exact ⟨⟨hall', hall⟩, rfl⟩
  rw [utf8_ascii hwritten.1, hwritten.2]

/-- Texts without percent signs stay apart. -/
theorem encode_injective (hascii : ∀ b, encoded b = false → b.toNat < 128) {xs ys : List Char}
    (hxs : '%' ∉ xs) (hys : '%' ∉ ys) (h : encode encoded xs = encode encoded ys) : xs = ys := by
  have hbytes : utf8 (String.ofList xs) = utf8 (String.ofList ys) := by
    rw [← decode_encode hascii hxs, ← decode_encode hascii hys, h]
  have htext := congrArg Bytes.text? hbytes
  rw [Bytes.text?_utf8, Bytes.text?_utf8] at htext
  exact String.ofList_injective (Option.some.inj htext)

/-- Writing a text puts no slash into it. -/
theorem slash_notMem_encode {cs : List Char} (h : '/' ∉ cs) : '/' ∉ encode encoded cs := by
  have hdigit : ∀ d < 16, digit d ≠ '/' := by decide +kernel
  have hbyte : ∀ n < 256, Char.ofNat n = '/' → UInt8.ofNat n = asciiByte '/' := by decide +kernel
  rw [encode, List.mem_flatMap]
  rintro ⟨b, hb, hslash⟩
  unfold encodeByte at hslash
  split at hslash
  · simp only [List.mem_cons, List.not_mem_nil, or_false] at hslash
    rcases hslash with hslash | hslash | hslash
    · exact absurd hslash (by decide)
    · exact hdigit _ (by have := b.toNat_lt; omega) hslash.symm
    · exact hdigit _ (Nat.mod_lt _ (by decide)) hslash.symm
  · have heq := hbyte b.toNat b.toNat_lt (List.mem_singleton.mp hslash).symm
    rw [UInt8.ofNat_toNat] at heq
    exact asciiByte_notMem_utf8 (by decide) h (heq ▸ hb)

theorem ascii_of_not_inPath (b : UInt8) (h : inPath b = false) : b.toNat < 128 := by
  simp only [inPath, inFragment, inControls, Bool.or_eq_false_iff, decide_eq_false_iff_not] at h
  have hhigh : b.toNat ≤ 126 := Nat.not_lt.mp h.1.1.2
  omega

end Percent

/-! ## Segments -/

namespace Url

/-- The segments above, the nearest first, after one more segment. -/
def enter (above : List String) (segment : String) : List String :=
  if isDoubleDot segment then leave above else if isDot segment then above else segment :: above

/-- Only capital letters become small ones. -/
theorem eq_of_toLower {c d : Char} (hd : d.toNat < 97) (h : c.toLower = d) : c = d := by
  unfold Char.toLower at h
  split at h
  · next hcapital =>
    have hlow : 65 ≤ c.val.toNat := hcapital.1
    have hhigh : c.val.toNat ≤ 90 := hcapital.2
    have hvalue : (c.val + 32).toNat = d.toNat := congrArg Char.toNat h
    have hstep : (32 : UInt32).toNat = 32 := rfl
    rw [UInt32.toNat_add, hstep, Nat.mod_eq_of_lt (by omega)] at hvalue
    omega
  · exact h

/-- A dot segment has a dot or a percent sign, and no hyphen. -/
theorem characters_of_dots {s : String} (h : isDoubleDot s = true ∨ isDot s = true) :
    ('.' ∈ s.toList ∨ '%' ∈ s.toList) ∧ '-' ∉ s.toList := by
  have hlower : ∀ {c}, c ∈ s.toList → c.toLower ∈ (s.map Char.toLower).toList := by
    intro c hc
    rw [String.toList_map]
    exact List.mem_map_of_mem hc
  have hsmall : ∀ {c}, c.toNat < 97 → c ∈ (s.map Char.toLower).toList → c ∈ s.toList := by
    intro c hsmall hc
    rw [String.toList_map] at hc
    obtain ⟨d, hd, heq⟩ := List.mem_map.mp hc
    exact eq_of_toLower hsmall heq ▸ hd
  rcases h with h | h
  · have hwritten : ∀ t ∈ ["..", "%2e.", ".%2e", "%2e%2e"],
        ('.' ∈ t.toList ∨ '%' ∈ t.toList) ∧ '-' ∉ t.toList := by decide
    obtain ⟨hdots, hdash⟩ := hwritten _ (List.contains_iff_mem.mp h)
    exact ⟨hdots.imp (hsmall (by decide)) (hsmall (by decide)), fun h => hdash (hlower h)⟩
  · simp only [isDot, Bool.or_eq_true, decide_eq_true_eq] at h
    rcases h with (rfl | rfl) | rfl <;> decide

theorem enter_of_notDots {segment : String} (above : List String)
    (h : ¬(isDoubleDot segment = true ∨ isDot segment = true)) :
    enter above segment = segment :: above := by
  rw [not_or] at h
  rw [enter, if_neg h.1, if_neg h.2]

/-- The segments of a path in their written form. -/
def segmentsOf (special : Bool) (cs : List Char) : List String :=
  (Text.cut (isSlash special) cs).map encodeSegment

/-- A path that ends with a slash leads to where its segments lead. -/
theorem resolve_slash (above segments : List String) :
    resolve above (segments ++ [""]) = ("" :: segments.foldl enter above).reverse := by
  induction segments generalizing above with
  | nil =>
    have hstays : isDoubleDot "" = false ∧ isDot "" = false := by decide +kernel
    simp only [List.nil_append, resolve, hstays]
    rfl
  | cons segment segments ih =>
    obtain ⟨next, rest, hnext⟩ := List.exists_cons_of_ne_nil
      (List.append_ne_nil_of_right_ne_nil segments (List.cons_ne_nil "" []))
    rw [List.cons_append, hnext, resolve, ← hnext, ih, ih, ih, List.foldl_cons, enter]
    · split
      · rfl
      · split <;> rfl
    · simp

-- two dots leave the segment above, but not one that looks like a drive
example : resolve [] ["a", "b", "..", "c:", "..", "d", ""] = ["a", "c:", "d", ""] := by
  decide +kernel

theorem isSlash_slash (special : Bool) : isSlash special '/' = true := rfl

theorem segmentsOf_append (special : Bool) (xs ys : List Char) :
    segmentsOf special (xs ++ '/' :: ys) = segmentsOf special xs ++ segmentsOf special ys := by
  rw [segmentsOf, Text.cut_append_separator (isSlash_slash special), List.map_append]
  rfl

/-- Where a path leads that begins and ends with a slash. -/
theorem readPath_slashes (special : Bool) (cs : List Char) :
    readPath special ('/' :: (cs ++ ['/'])) =
      .rooted ("" :: (segmentsOf special cs).foldl enter []).reverse := by
  have hlast : segmentsOf special [] = [""] := by
    simp [segmentsOf, Text.cut, encodeSegment, Percent.encode, utf8]
  have hsegments := segmentsOf_append special cs []
  rw [hlast] at hsegments
  rw [readPath, isSlash_slash, if_pos rfl, ← resolve_slash, ← hsegments]
  rfl

theorem slash_notMem_segmentsOf {special : Bool} {cs : List Char} {segment : String}
    (h : segment ∈ segmentsOf special cs) : '/' ∉ segment.toList := by
  obtain ⟨piece, hpiece, rfl⟩ := List.mem_map.mp h
  rw [encodeSegment, String.toList_ofList]
  refine Percent.slash_notMem_encode fun hslash => ?_
  have hfree := (Text.mem_of_mem_cut hpiece '/' hslash).1
  cases hfree

theorem length_leave_le (above : List String) : (leave above).length ≤ above.length := by
  unfold leave
  split
  · exact Nat.le_refl _
  · split
    · exact Nat.le_refl _
    · exact Nat.le_succ _

theorem mem_leave {above : List String} {s : String} (h : s ∈ leave above) : s ∈ above := by
  unfold leave at h
  split at h
  · cases h
  · split at h
    · exact h
    · exact List.mem_cons_of_mem _ h

theorem mem_enter {above : List String} {segment s : String} (h : s ∈ enter above segment) :
    s ∈ above ∨ s = segment := by
  unfold enter at h
  split at h
  · exact .inl (mem_leave h)
  · split at h
    · exact .inl h
    · exact (List.mem_cons.mp h).symm

theorem mem_foldl_enter {above segments : List String} {s : String}
    (h : s ∈ segments.foldl enter above) : s ∈ above ∨ s ∈ segments := by
  induction segments generalizing above with
  | nil => exact .inl h
  | cons segment segments ih =>
    rcases ih h with h | h
    · rcases mem_enter h with h | rfl
      · exact .inl h
      · exact .inr List.mem_cons_self
    · exact .inr (List.mem_cons_of_mem _ h)

/-! ## The text of a path -/

theorem toList_render_rooted (segments : List String) :
    (Path.rooted segments).render.toList = segments.flatMap fun s => '/' :: s.toList := by
  induction segments with
  | nil => rfl
  | cons s segments ih =>
    have hcons : (Path.rooted (s :: segments)).render
        = "/" ++ s ++ (Path.rooted segments).render := by
      simp [Path.render, String.join_cons]
    rw [hcons, String.toList_append, ih, List.flatMap_cons]
    simp

/-- A text of segments is cut into them again. -/
theorem cut_segments {piece : List Char} (hpiece : '/' ∉ piece) {segments : List String}
    (h : ∀ s ∈ segments, '/' ∉ s.toList) :
    Text.cut (· == '/') (piece ++ segments.flatMap fun s => '/' :: s.toList) =
      piece :: segments.map String.toList := by
  have hfree : ∀ {cs : List Char}, '/' ∉ cs → ∀ c ∈ cs, (c == '/') = false := fun hcs c hc =>
    beq_eq_false_iff_ne.mpr fun heq => hcs (heq ▸ hc)
  induction segments generalizing piece with
  | nil => rw [List.flatMap_nil, List.append_nil, Text.cut_of_none (hfree hpiece)]; rfl
  | cons s segments ih =>
    rw [List.flatMap_cons, List.cons_append, Text.cut_append (by rfl) (hfree hpiece),
      ih (h s List.mem_cons_self) fun t ht => h t (List.mem_cons_of_mem _ ht)]
    rfl

/-- The segments of a path can be told from its text. -/
theorem render_rooted_injective {segments₁ segments₂ : List String}
    (h₁ : ∀ s ∈ segments₁, '/' ∉ s.toList) (h₂ : ∀ s ∈ segments₂, '/' ∉ s.toList)
    (h : (Path.rooted segments₁).render = (Path.rooted segments₂).render) :
    segments₁ = segments₂ := by
  have htext := congrArg String.toList h
  rw [toList_render_rooted, toList_render_rooted] at htext
  have hcut := congrArg (Text.cut (· == '/')) htext
  have hpieces₁ := cut_segments List.not_mem_nil h₁
  have hpieces₂ := cut_segments List.not_mem_nil h₂
  rw [List.nil_append] at hpieces₁ hpieces₂
  rw [hpieces₁, hpieces₂] at hcut
  exact List.map_injective_iff.mpr (fun _ _ => String.toList_inj.mp) (List.cons.inj hcut).2

end Url

end MessageBus
