import Mathlib.Algebra.Order.Ring.Nat
import MessageBus.Proofs.Url.DomainName

/-! # Hosts in their written form

    The host of a special URL is a domain name or an address.  Its text is read
    as the same host again: four decimal parts make the number they are taken
    from, and the eight pieces of the other kind come back whether or not two
    colons stand for a run of zeros.

    * `readDigits?_toDigits`: a piece in hexadecimal digits.
    * `exists_longestZeros`: what two colons stand for.
    * `isCanonical_of_special`: what a host that was read is like.
    * `special_render`: the text of such a host is read as that host. -/

namespace MessageBus.Host

/-! ## Hexadecimal digits -/

variable {n : Nat} {cs : List Char}

theorem hexValue?_digitChar : ∀ d < 16, Bytes.hexValue? (Nat.digitChar d) = some d := by
  decide

theorem readDigits?_append {base d : Nat} {c : Char} (h : readDigits? base cs = some n)
    (hc : Bytes.hexValue? c = some d) (hd : d < base) :
    readDigits? base (cs ++ [c]) = some (n * base + d) := by
  unfold readDigits? at h ⊢
  split at h
  · cases h
  · next hsome =>
    rw [if_neg (by simp), List.foldlM_append, h]
    simp [hc, hd]

/-- A number in hexadecimal digits is read as that number. -/
theorem readDigits?_toDigits (n : Nat) : readDigits? 16 (Nat.toDigits 16 n) = some n := by
  induction n using Nat.strongRecOn with
  | ind n ih =>
    rw [Nat.toDigits_eq_if (by decide)]
    by_cases hn : n < 16
    · rw [if_pos hn]
      simp [readDigits?, hexValue?_digitChar n hn, hn]
    · have hmod : n % 16 < 16 := Nat.mod_lt _ (by decide)
      rw [if_neg hn, readDigits?_append (ih (n / 16) (by omega)) (hexValue?_digitChar _ hmod) hmod]
      congr 1
      omega

/-- A digit of a number in hexadecimal digits. -/
theorem exists_digitChar {c : Char} (h : c ∈ Nat.toDigits 16 n) :
    ∃ d < 16, c = Nat.digitChar d := by
  induction n using Nat.strongRecOn with
  | ind n ih =>
    rw [Nat.toDigits_eq_if (by decide)] at h
    split at h
    · next hn => exact ⟨n, hn, List.mem_singleton.mp h⟩
    · rcases List.mem_append.mp h with h | h
      · exact ih _ (by omega) h
      · exact ⟨n % 16, Nat.mod_lt _ (by decide), List.mem_singleton.mp h⟩

theorem digitChar_allowed : ∀ d < 16, isForbidden (Nat.digitChar d) = false ∧
    Nat.digitChar d ≠ ':' ∧ (Nat.digitChar d != '.') = true := by
  decide

theorem lt_of_foldlM {base : Nat} (cs : List Char) : ∀ {m n : Nat},
    (cs.foldlM (fun n c => do
      let d ← Bytes.hexValue? c
      if d < base then some (n * base + d) else none) m) = some n →
    n < (m + 1) * base ^ cs.length := by
  induction cs with
  | nil =>
    intro m n h
    cases h
    simp
  | cons c cs ih =>
    intro m n h
    rw [List.foldlM_cons] at h
    obtain ⟨next, hnext, h⟩ := Option.bind_eq_some_iff.mp h
    obtain ⟨d, -, hnext⟩ := Option.bind_eq_some_iff.mp hnext
    split at hnext
    · next hd =>
      cases hnext
      have hle : m * base + d + 1 ≤ (m + 1) * base := by
        rw [Nat.add_mul]
        omega
      calc n < (m * base + d + 1) * base ^ cs.length := ih h
        _ ≤ (m + 1) * base * base ^ cs.length := Nat.mul_le_mul_right _ hle
        _ = (m + 1) * base ^ (c :: cs).length := by
          rw [List.length_cons, Nat.pow_succ, Nat.mul_assoc, Nat.mul_comm base]
    · cases hnext

/-- A number of some digits is less than that power of the base. -/
theorem lt_of_readDigits? {base : Nat} (h : readDigits? base cs = some n) :
    n < base ^ cs.length := by
  unfold readDigits? at h
  split at h
  · cases h
  · simpa using lt_of_foldlM cs h

/-! ## Addresses of version 6 -/

variable {pieces : List Nat}

theorem eq_zeros_append (pieces : List Nat) :
    ∃ back, pieces = List.replicate (zeros pieces) 0 ++ back := by
  refine ⟨pieces.dropWhile (· == 0), ?_⟩
  have hzeros : pieces.takeWhile (· == 0) = List.replicate (zeros pieces) 0 := by
    rw [List.eq_replicate_iff]
    refine ⟨rfl, fun p hp => ?_⟩
    simpa using List.all_eq_true.mp List.all_takeWhile p hp
  rw [← hzeros, List.takeWhile_append_dropWhile]

/-- What two colons stand for. -/
theorem exists_longestZeros (pieces : List Nat) (start : Nat) :
    ∃ front back, pieces = front ++ List.replicate (longestZeros start pieces).2 0 ++ back ∧
      (longestZeros start pieces).1 = start + front.length := by
  induction pieces generalizing start with
  | nil => exact ⟨[], [], rfl, rfl⟩
  | cons p rest ih =>
    rw [longestZeros]
    split
    -- The run starts here, or it is found in the rest, one place further on.
    · obtain ⟨back, hback⟩ := eq_zeros_append (p :: rest)
      exact ⟨[], back, hback, rfl⟩
    · obtain ⟨front, back, hrest, hstart⟩ := ih (start + 1)
      refine ⟨p :: front, back, ?_, ?_⟩
      · rw [List.cons_append, List.cons_append, ← hrest]
      · rw [hstart, List.length_cons]
        omega

/-- Pieces with colons between them. -/
def joined (pieces : List Nat) : List Char := [':'].intercalate (pieces.map (Nat.toDigits 16))

theorem toList_intercalate_hex (pieces : List Nat) :
    (String.intercalate ":" (pieces.map hex)).toList = joined pieces := by
  rw [String.toList_intercalate, List.map_map, joined]
  congr 1
  exact List.map_congr_left fun p _ => String.toList_ofList

/-- The two forms of an address. -/
theorem toList_renderV6 (pieces : List Nat) :
    (renderV6 pieces).toList = joined pieces ∨ ∃ front back zeros, 1 < zeros ∧
      pieces = front ++ List.replicate zeros 0 ++ back ∧
      (renderV6 pieces).toList = joined front ++ ':' :: ':' :: joined back := by
  obtain ⟨front, back, hpieces, hstart⟩ := exists_longestZeros pieces 0
  unfold renderV6
  generalize longestZeros 0 pieces = run at hpieces hstart
  obtain ⟨start, zeros⟩ := run
  simp only at hpieces hstart ⊢
  split
  · exact .inl (toList_intercalate_hex pieces)
  · refine .inr ⟨front, back, zeros, by omega, hpieces, ?_⟩
    have htake : pieces.take start = front := by
      rw [hpieces, hstart]
      simp
    have hdrop : pieces.drop (start + zeros) = back := by
      rw [hpieces, hstart]
      simp
    rw [htake, hdrop]
    simp only [String.toList_append, toList_intercalate_hex]
    simp

theorem joined_cons_cons (p q : Nat) (pieces : List Nat) :
    joined (p :: q :: pieces) = Nat.toDigits 16 p ++ ':' :: joined (q :: pieces) := by
  simp [joined, List.intercalate_cons_cons]

theorem ne_colon_of_mem_toDigits {c : Char} (h : c ∈ Nat.toDigits 16 n) : (c == ':') = false := by
  obtain ⟨d, hd, rfl⟩ := exists_digitChar h
  exact beq_eq_false_iff_ne.mpr (digitChar_allowed d hd).2.1

theorem cut_joined (h : pieces ≠ []) :
    Text.cut (· == ':') (joined pieces) = pieces.map (Nat.toDigits 16) := by
  refine Text.cut_intercalate rfl (by simpa using h) fun piece hpiece c hc => ?_
  obtain ⟨p, -, rfl⟩ := List.mem_map.mp hpiece
  exact ne_colon_of_mem_toDigits hc

/-- Cutting at two colons passes a piece. -/
theorem cutGap?_append {piece : List Char} (h : ∀ c ∈ piece, (c == ':') = false)
    (rest : List Char) :
    cutGap? (piece ++ rest) =
      (cutGap? rest).map fun (before, after) => (piece ++ before, after) := by
  induction piece with
  | nil => simp
  | cons c piece ih =>
    have hc : c ≠ ':' := by simpa using h c List.mem_cons_self
    rw [List.cons_append, cutGap?]
    · rw [ih fun d hd => h d (List.mem_cons_of_mem _ hd), Option.map_map]
      rfl
    · rintro _ rfl
      exact absurd rfl hc

theorem cutGap?_colon {c : Char} (hc : c ≠ ':') (rest : List Char) :
    cutGap? (':' :: c :: rest) =
      (cutGap? (c :: rest)).map fun (before, after) => (':' :: before, after) := by
  rw [cutGap?]
  rintro _ - heq
  exact hc (List.cons.inj heq).1

theorem exists_joined_cons (p : Nat) (pieces : List Nat) :
    ∃ c rest, c ≠ ':' ∧ joined (p :: pieces) = c :: rest := by
  obtain ⟨c, digits, hdigits⟩ := List.exists_cons_of_ne_nil (Nat.toDigits_ne_nil (n := p) (b := 16))
  have hc : c ≠ ':' := by
    have hmem : c ∈ Nat.toDigits 16 p := hdigits ▸ List.mem_cons_self
    simpa using ne_colon_of_mem_toDigits hmem
  cases pieces with
  | nil => exact ⟨c, digits, hc, by simp [joined, List.intercalate, hdigits]⟩
  | cons q pieces => exact ⟨c, _, hc, by rw [joined_cons_cons, hdigits, List.cons_append]⟩

/-- Cutting at two colons passes joined pieces. -/
theorem cutGap?_joined_append (pieces : List Nat) (rest : List Char) :
    cutGap? (joined pieces ++ rest) =
      (cutGap? rest).map fun (before, after) => (joined pieces ++ before, after) := by
  have hpiece : ∀ p, ∀ c ∈ Nat.toDigits 16 p, (c == ':') = false :=
    fun p c hc => ne_colon_of_mem_toDigits hc
  induction pieces with
  | nil => simp [joined]
  | cons p pieces ih =>
    cases pieces with
    | nil => simpa [joined, List.intercalate] using cutGap?_append (hpiece p) rest
    | cons q pieces =>
      -- A single colon is followed by a digit, so it is passed.
      obtain ⟨c, tail, hc, htail⟩ := exists_joined_cons q pieces
      rw [joined_cons_cons, List.append_assoc, cutGap?_append (hpiece p), List.cons_append, htail,
        List.cons_append, cutGap?_colon hc, ← List.cons_append, ← htail, ih, Option.map_map,
        Option.map_map]
      congr 1
      funext ⟨before, after⟩
      simp

/-- Pieces between colons are read as those pieces. -/
theorem readPieces?_map (mayEnd : Bool) (h : ∀ p ∈ pieces, p < 0x10000) :
    readPieces? mayEnd (pieces.map (Nat.toDigits 16)) = some pieces := by
  induction pieces with
  | nil => rfl
  | cons p pieces ih =>
    have hlength : (Nat.toDigits 16 p).length ≤ 4 :=
      (Nat.length_toDigits_le_iff (by decide) (by decide)).mpr (h p List.mem_cons_self)
    have hdots : (Nat.toDigits 16 p).all (· != '.') = true := by
      rw [List.all_eq_true]
      intro c hc
      obtain ⟨d, hd, rfl⟩ := exists_digitChar hc
      exact (digitChar_allowed d hd).2.2
    have hrest := ih fun q hq => h q (List.mem_cons_of_mem _ hq)
    cases pieces with
    | nil => simp [readPieces?, hlength, hdots, readDigits?_toDigits]
    | cons q pieces =>
      rw [List.map_cons, List.map_cons, readPieces?, if_pos hlength, readDigits?_toDigits,
        ← List.map_cons, hrest]
      · rfl
      · simp

/-- A part of an address is read as its pieces. -/
theorem readGroup?_joined (mayEnd : Bool) (h : ∀ p ∈ pieces, p < 0x10000) :
    readGroup? mayEnd (joined pieces) = some pieces := by
  cases pieces with
  | nil => rfl
  | cons p pieces =>
    obtain ⟨c, rest, -, hjoined⟩ := exists_joined_cons p pieces
    unfold readGroup?
    rw [if_neg (by simp [hjoined]), cut_joined (by simp), readPieces?_map mayEnd h]

theorem readV6?_renderV6 (hlength : pieces.length = 8) (h : ∀ p ∈ pieces, p < 0x10000) :
    readV6? (renderV6 pieces).toList = some pieces := by
  unfold readV6?
  rcases toList_renderV6 pieces with htext | ⟨front, back, zeros, hzeros, hpieces, htext⟩
  · have hgap : cutGap? (joined pieces) = none := by
      simpa [cutGap?] using cutGap?_joined_append pieces []
    have hsome : pieces ≠ [] := by
      rintro rfl
      cases hlength
    simp [htext, hgap, cut_joined hsome, readPieces?_map true h, hlength]
  · have hgap : cutGap? (joined front ++ ':' :: ':' :: joined back) =
        some (joined front, joined back) := by
      simpa [cutGap?] using cutGap?_joined_append front (':' :: ':' :: joined back)
    have hcount : front.length + zeros + back.length = 8 := by
      rw [← hlength, hpieces]
      simp [Nat.add_assoc]
    have hfront : ∀ p ∈ front, p < 0x10000 := fun p hp => h p (by simp [hpieces, hp])
    have hback : ∀ p ∈ back, p < 0x10000 := fun p hp => h p (by simp [hpieces, hp])
    -- Two colons stand for as many zeros as are missing, which are those of the run.
    have hfill : 8 - front.length - back.length = zeros := by omega
    simp only [htext, hgap, readGroup?_joined false hfront, readGroup?_joined true hback,
      Option.bind_eq_bind, Option.bind_some, hfill]
    rw [if_pos (by omega), hpieces]

theorem lt_of_readDecimal? (h : readDecimal? cs = some n) : n < 256 := by
  unfold readDecimal? at h
  split at h
  · cases h
  · split at h
    · split at h
      · cases h
        assumption
      · cases h
    · cases h

theorem lt_of_readDigits?_of_length (h : readDigits? 16 cs = some n) (hlength : cs.length ≤ 4) :
    n < 0x10000 :=
  Nat.lt_of_lt_of_le (lt_of_readDigits? h) (Nat.pow_le_pow_right (n := 16) (by decide) hlength)

/-- What is read between colons are pieces. -/
theorem lt_of_readPieces? {mayEnd : Bool} {texts : List (List Char)}
    (h : readPieces? mayEnd texts = some pieces) : ∀ p ∈ pieces, p < 0x10000 := by
  fun_induction readPieces? mayEnd texts generalizing pieces with
  | case1 =>
    cases h
    simp
  | case2 text hshort =>
    obtain ⟨n, hn, rfl⟩ := Option.map_eq_some_iff.mp h
    simpa using lt_of_readDigits?_of_length hn hshort.1
  | case3 text _ _ a b c d hparts =>
    cases h
    obtain ⟨-, hall⟩ := exists_of_mapM hparts
    have hlt : ∀ n ∈ [a, b, c, d], n < 256 := fun n hn =>
      let ⟨_, _, hread⟩ := hall n hn
      lt_of_readDecimal? hread
    simp only [List.mem_cons, List.not_mem_nil, or_false, forall_eq_or_imp, forall_eq] at hlt ⊢
    omega
  | case6 text rest _ hshort ih =>
    obtain ⟨n, hn, h⟩ := Option.bind_eq_some_iff.mp h
    obtain ⟨ns, hns, h⟩ := Option.bind_eq_some_iff.mp h
    cases h
    intro p hp
    rcases List.mem_cons.mp hp with rfl | hp
    · exact lt_of_readDigits?_of_length hn hshort
    · exact ih hns p hp
  | case4 => cases h
  | case5 => cases h
  | case7 => cases h

theorem lt_of_readGroup? {mayEnd : Bool} (h : readGroup? mayEnd cs = some pieces) :
    ∀ p ∈ pieces, p < 0x10000 := by
  unfold readGroup? at h
  split at h
  · cases h
    simp
  · exact lt_of_readPieces? h

/-- An address of version 6 is eight pieces. -/
theorem pieces_of_readV6? (h : readV6? cs = some pieces) :
    pieces.length = 8 ∧ ∀ p ∈ pieces, p < 0x10000 := by
  unfold readV6? at h
  split at h
  · obtain ⟨read, hread, h⟩ := Option.bind_eq_some_iff.mp h
    split at h
    · next hlength =>
      cases h
      exact ⟨hlength, lt_of_readPieces? hread⟩
    · cases h
  · obtain ⟨front, hfront, h⟩ := Option.bind_eq_some_iff.mp h
    obtain ⟨back, hback, h⟩ := Option.bind_eq_some_iff.mp h
    split at h
    · next hroom =>
      cases h
      refine ⟨by simp; omega, fun p hp => ?_⟩
      simp only [List.mem_append, List.mem_replicate] at hp
      rcases hp with (hp | ⟨-, rfl⟩) | hp
      · exact lt_of_readGroup? hfront p hp
      · decide
      · exact lt_of_readGroup? hback p hp
    · cases h

theorem toList_render_v6 (pieces : List Nat) :
    (render (.v6 pieces)).toList = '[' :: (renderV6 pieces).toList ++ [']'] := by
  simp [render]

theorem mem_joined {c : Char} (h : c ∈ joined pieces) : isForbidden c = false ∨ c = ':' := by
  rcases Text.mem_intercalate h with rfl | ⟨text, htext, hc⟩
  · exact .inr rfl
  · obtain ⟨p, -, rfl⟩ := List.mem_map.mp htext
    obtain ⟨d, hd, rfl⟩ := exists_digitChar hc
    exact .inl (digitChar_allowed d hd).1

theorem mem_renderV6 {c : Char} (h : c ∈ (renderV6 pieces).toList) :
    isForbidden c = false ∨ c = ':' := by
  rcases toList_renderV6 pieces with htext | ⟨front, back, zeros, -, -, htext⟩
  all_goals rw [htext] at h
  · exact mem_joined h
  · simp only [List.mem_append, List.mem_cons] at h
    rcases h with h | h | h | h
    · exact mem_joined h
    · exact .inr h
    · exact .inr h
    · exact mem_joined h

/-! ## Addresses of version 4 -/

/-- The parts of an address. -/
def octets (a : Nat) : List Nat := [a / 0x1000000, a / 0x10000 % 256, a / 0x100 % 256, a % 256]

theorem octets_lt {a : Nat} (h : a < 0x100000000) : ∀ n ∈ octets a, n < 256 := by
  simp only [octets, List.mem_cons, List.not_mem_nil, or_false, forall_eq_or_imp, forall_eq]
  omega

theorem lt_of_readV4? {a : Nat} (h : readV4? cs = some a) : a < 0x100000000 := by
  unfold readV4? at h
  obtain ⟨numbers, -, h⟩ := Option.bind_eq_some_iff.mp h
  obtain ⟨last, hlast, h⟩ := Option.bind_eq_some_iff.mp h
  obtain ⟨first, rfl⟩ := List.getLast?_eq_some_iff.mp hlast
  rw [List.dropLast_concat] at h
  simp only at h
  split at h
  · cases h
  · next hfits =>
    cases h
    simp only [not_or, Nat.not_lt, Nat.not_le, List.length_append, List.length_singleton,
      Bool.not_eq_true, List.any_eq_false, decide_eq_true_eq] at hfits
    obtain ⟨hcount, hsmall, hroom⟩ := hfits
    -- There are at most four parts, so their number is one of four.
    rcases first with _ | ⟨x, _ | ⟨y, _ | ⟨z, _ | ⟨w, first⟩⟩⟩⟩
    all_goals simp [Nat.pow_eq] at hsmall hroom hcount ⊢
    all_goals omega

/-- The text of an address. -/
theorem toList_render_v4 (a : Nat) :
    (render (.v4 a)).toList = ['.'].intercalate ((octets a).map (Nat.toDigits 10)) := by
  rw [render, String.toList_intercalate, List.map_map]
  congr 1
  exact List.map_congr_left fun n _ => by simp

theorem readPart?_toDigits : ∀ n < 256, readPart? (Nat.toDigits 10 n) = some n := by
  decide +kernel

theorem isDigit_of_mem_toDigits {c : Char} (h : c ∈ Nat.toDigits 10 n) : c.isDigit = true :=
  Nat.isDigit_of_mem_toDigits (by decide) (by decide) h

theorem isLetter_of_mem_toDigits {c : Char} (h : c ∈ Nat.toDigits 10 n) :
    IsLetter c ∧ isForbidden c = false :=
  isLetter_of_isDigit (by simp [Punycode.isDigit, isDigit_of_mem_toDigits h])

/-- A number in decimal digits is a label. -/
theorem isWritten_toDigits (n : Nat) : IsWritten (Nat.toDigits 10 n) := by
  have hletters : ∀ c ∈ Nat.toDigits 10 n, IsLetter c :=
    fun c hc => (isLetter_of_mem_toDigits hc).1
  refine ⟨hletters, ?_⟩
  have hmark : (Nat.toDigits 10 n).take 4 ≠ encodedMark := by
    intro h
    have hx : 'x' ∈ (Nat.toDigits 10 n).take 4 := by
      rw [h]
      decide
    cases isDigit_of_mem_toDigits (List.mem_of_mem_take hx)
  unfold label?
  rw [if_pos (all_ascii hletters), if_neg fun h => hmark h.1]

theorem isWritten_octets (a : Nat) :
    ∀ label ∈ (octets a).map (Nat.toDigits 10), IsWritten label := by
  intro label hlabel
  obtain ⟨n, -, rfl⟩ := List.mem_map.mp hlabel
  exact isWritten_toDigits n

/-- The text of an address is a name. -/
theorem isName_v4 (a : Nat) : IsName (render (.v4 a)).toList := by
  refine ⟨⟨_, by simp [octets], isWritten_octets a, toList_render_v4 a⟩, ?_⟩
  rw [List.any_eq_false, toList_render_v4]
  intro c hc
  rcases Text.mem_intercalate hc with rfl | ⟨label, hlabel, hc⟩
  · decide
  · obtain ⟨n, -, rfl⟩ := List.mem_map.mp hlabel
    simp [(isLetter_of_mem_toDigits hc).2]

theorem parts_v4 (a : Nat) :
    parts (render (.v4 a)).toList = (octets a).map (Nat.toDigits 10) := by
  have hcut : Text.cut (· == '.') (render (.v4 a)).toList = (octets a).map (Nat.toDigits 10) := by
    rw [toList_render_v4]
    exact Text.cut_intercalate rfl (by simp [octets]) fun label hlabel c hc =>
      ((isWritten_octets a label hlabel).letters c hc).undotted
  unfold parts
  rw [hcut, if_neg]
  rintro ⟨-, hlast⟩
  rw [List.getLast?_map] at hlast
  simp [octets, Nat.toDigits_ne_nil] at hlast

theorem endsInNumber_v4 (a : Nat) : endsInNumber (render (.v4 a)).toList = true := by
  unfold endsInNumber
  rw [parts_v4]
  have hdigits : (Nat.toDigits 10 (a % 256)).all Char.isDigit = true :=
    List.all_eq_true.mpr fun c hc => isDigit_of_mem_toDigits hc
  simp [octets, hdigits, Nat.toDigits_ne_nil]

theorem render_v4_ne_nil (a : Nat) : (render (.v4 a)).toList ≠ [] := by
  intro hnil
  have hends := endsInNumber_v4 a
  rw [hnil] at hends
  cases hends

/-- The text of an address is read as that address. -/
theorem readV4?_render {a : Nat} (h : a < 0x100000000) :
    readV4? (render (.v4 a)).toList = some a := by
  have hread : ((octets a).map (Nat.toDigits 10)).mapM readPart? = some (octets a) := by
    rw [List.mapM_map]
    exact mapM_eq_self fun n hn => readPart?_toDigits n (octets_lt h n hn)
  unfold readV4?
  simp only [parts_v4, hread]
  simp [octets, Nat.pow_eq]
  omega

/-! ## Hosts -/

/-- A host as it is written: a name that is no number, or an address. -/
def IsCanonical : Host → Prop
  | .empty => False
  | .domain name => IsName name.toList ∧ name ≠ "" ∧ endsInNumber name.toList = false
  | .v4 a => a < 0x100000000
  | .v6 pieces => pieces.length = 8 ∧ ∀ p ∈ pieces, p < 0x10000

variable {host : Host}

theorem special_v6 (hlength : pieces.length = 8) (h : ∀ p ∈ pieces, p < 0x10000) :
    special (render (.v6 pieces)).toList = .ok (.v6 pieces) := by
  rw [toList_render_v6, List.cons_append, special, bracketed]
  simp [readV6?_renderV6 hlength h]

/-- What a name is taken for. -/
theorem special_of_isName {name : List Char} (h : IsName name) :
    special name = if name.isEmpty then .error .emptyHost
      else if endsInNumber name then
        match readV4? name with
        | some a => .ok (.v4 a)
        | none => .error .addressV4
      else .ok (.domain (String.ofList name)) := by
  unfold special
  split
  · exact absurd (h.not_isForbidden '[' List.mem_cons_self) (by decide)
  · rw [h.domainName_eq]
    rfl

/-- A host that was read is as it is written. -/
theorem isCanonical_of_special (h : special cs = .ok host) : host.IsCanonical := by
  unfold special at h
  split at h
  · unfold bracketed at h
    split at h
    · split at h
      · next hread =>
        cases h
        exact pieces_of_readV6? hread
      · cases h
    · cases h
  · obtain ⟨name, hname, h⟩ := exists_of_bind h
    have hisName := isName_of_domainName hname
    split at h
    · cases h
    · next hsome =>
      split at h
      · split at h
        · next hread =>
          cases h
          exact lt_of_readV4? hread
        · cases h
      · next hnumber =>
        cases h
        refine ⟨by simpa using hisName, ?_, by simpa using hnumber⟩
        simpa using hsome

/-- The text of a host is read as that host. -/
theorem special_render (h : host.IsCanonical) : special host.render.toList = .ok host := by
  cases host with
  | empty => cases h
  | domain name =>
    obtain ⟨hname, hsome, hnumber⟩ := h
    rw [render, special_of_isName hname]
    simp [hsome, hnumber]
  | v4 a =>
    rw [special_of_isName (isName_v4 a), endsInNumber_v4, readV4?_render h]
    simp [render_v4_ne_nil a]
  | v6 pieces => exact special_v6 h.1 h.2

/-- The text of a host has what a name may have, or is in brackets. -/
theorem render_characters (h : host.IsCanonical) :
    host.render.toList ≠ [] ∧ ((∀ c ∈ host.render.toList, isForbidden c = false) ∨
      ∃ inner, host.render.toList = '[' :: inner ++ [']'] ∧
        ∀ c ∈ inner, isForbidden c = false ∨ c = ':') := by
  cases host with
  | empty => cases h
  | domain name =>
    obtain ⟨hname, hsome, -⟩ := h
    exact ⟨by simpa [render] using hsome, .inl hname.not_isForbidden⟩
  | v4 a => exact ⟨render_v4_ne_nil a, .inl (isName_v4 a).not_isForbidden⟩
  | v6 pieces =>
    have htext := toList_render_v6 pieces
    exact ⟨by simp [htext], .inr ⟨_, htext, fun c hc => mem_renderV6 hc⟩⟩

end MessageBus.Host
