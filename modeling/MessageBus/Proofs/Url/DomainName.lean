import MessageBus.Proofs.Url.Characters
import MessageBus.Proofs.Url.Punycode
import MessageBus.Url.Host

/-! # Domain names in their written form

    A domain name is folded to lower case, and its labels are written in
    ASCII.  A name in that form is left alone when it is read again: folding
    has nothing to do, and a label with the mark of an encoded one stands for a
    label that needs it.

    * `isFolded_of_mem_fold`: folding leaves nothing to fold.
    * `isWritten_of_label?`, `isName_of_domainName`: what is written.
    * `IsName.domainName_eq`: a name as it is written stays. -/

namespace MessageBus.Host

/-! ## Folding -/

/-- Whether a character is one that folding leaves. -/
def IsFolded (c : Char) : Prop := fold c = [c]

theorem foldLatin?_eq_none {n : Nat} (h : 0x180 ≤ n) : foldLatin? n = none := by
  unfold foldLatin?
  rw [List.lookup_eq_none_iff]
  simp only [List.mem_cons, List.not_mem_nil, or_false]
  rintro p (rfl | rfl | rfl | rfl | rfl | rfl | rfl | rfl | rfl | rfl | rfl | rfl | rfl | rfl | rfl
    | rfl | rfl)
  all_goals
    simp only [bne_iff_ne, ne_eq]
    omega

theorem toLower_eq_self {c : Char} (h : 128 ≤ c.toNat) : c.toLower = c := by
  have hval : 128 ≤ c.val.toNat := h
  unfold Char.toLower
  rw [dif_neg]
  rintro ⟨-, hle⟩
  have : c.val.toNat ≤ 90 := hle
  omega

/-- Whether folding leaves nothing to fold of some characters, from a code point on. -/
def foldsOnce (first count : Nat) : Bool :=
  (List.range count).all fun k => (fold (Char.ofNat (first + k))).all fun d => fold d == [d]

theorem foldsOnce_latin : foldsOnce 0 0x180 = true := by decide +kernel

theorem foldsOnce_greek_cyrillic : foldsOnce 0x390 0xF2 = true := by decide +kernel

theorem foldsOnce_armenian : foldsOnce 0x531 38 = true := by decide +kernel

theorem foldsOnce_wide : foldsOnce 0xFF01 94 = true := by decide +kernel

theorem isFolded_of_foldsOnce {first count : Nat} {c d : Char} (h : foldsOnce first count = true)
    (hc : first ≤ c.toNat ∧ c.toNat < first + count) (hd : d ∈ fold c) : IsFolded d := by
  have hk := List.all_eq_true.mp h (c.toNat - first) (List.mem_range.mpr (by omega))
  rw [Nat.add_sub_cancel' hc.1, Char.ofNat_toNat] at hk
  exact beq_iff_eq.mp (List.all_eq_true.mp hk d hd)

/-- Outside of the alphabets with capitals a character is left out, or stands for a space or a full
stop, or for itself. -/
theorem fold_of_other {c : Char} (hlatin : 0x180 ≤ c.toNat)
    (hgreek : c.toNat < 0x390 ∨ 0x482 ≤ c.toNat) (harmenian : c.toNat < 0x531 ∨ 0x557 ≤ c.toNat)
    (hwide : c.toNat < 0xFF01 ∨ 0xFF5F ≤ c.toNat) :
    fold c = [] ∨ fold c = [' '] ∨ fold c = ['.'] ∨ fold c = [c] := by
  unfold fold
  by_cases hignored : isIgnored c.toNat = true
  · exact .inl (if_pos hignored)
  by_cases hspacing : isSpacing c.toNat = true
  · exact .inr (.inl (by simp only [hignored, hspacing, if_true, if_false, Bool.false_eq_true]))
  by_cases hstop : c.toNat = 0x3002 ∨ c.toNat = 0xFF61
  · exact .inr (.inr (.inl (by
      simp only [hignored, hspacing, hstop, if_true, if_false, Bool.false_eq_true])))
  refine .inr (.inr (.inr ?_))
  simp only [hignored, hspacing, hstop, if_false, Bool.false_eq_true, foldLatin?_eq_none hlatin,
    toLower_eq_self (Nat.le_trans (by omega : 128 ≤ 0x180) hlatin)]
  repeat rw [if_neg (by omega)]

/-- Folding leaves nothing to fold. -/
theorem isFolded_of_mem_fold {c d : Char} (h : d ∈ fold c) : IsFolded d := by
  -- The alphabets with capitals are gone through letter by letter.
  by_cases hlatin : c.toNat < 0x180
  · exact isFolded_of_foldsOnce foldsOnce_latin (by omega) h
  by_cases hgreek : 0x390 ≤ c.toNat ∧ c.toNat < 0x482
  · exact isFolded_of_foldsOnce foldsOnce_greek_cyrillic hgreek h
  by_cases harmenian : 0x531 ≤ c.toNat ∧ c.toNat < 0x557
  · exact isFolded_of_foldsOnce foldsOnce_armenian harmenian h
  by_cases hwide : 0xFF01 ≤ c.toNat ∧ c.toNat < 0xFF5F
  · exact isFolded_of_foldsOnce foldsOnce_wide hwide h
  rcases fold_of_other (c := c) (by omega) (by omega) (by omega) (by omega) with hc | hc | hc | hc
  all_goals rw [hc] at h
  · cases h
  · rw [List.mem_singleton.mp h]
    rfl
  · rw [List.mem_singleton.mp h]
    rfl
  · rwa [List.mem_singleton.mp h]

theorem flatMap_fold {cs : List Char} (h : ∀ c ∈ cs, IsFolded c) : cs.flatMap fold = cs := by
  induction cs with
  | nil => rfl
  | cons c cs ih =>
    rw [List.flatMap_cons, h c List.mem_cons_self, ih fun d hd => h d (List.mem_cons_of_mem _ hd)]
    rfl

/-! ## Labels -/

/-- A character of a label as it is written. -/
structure IsLetter (c : Char) : Prop where
  ascii : c.toNat < 128
  folded : IsFolded c
  undotted : (c == '.') = false

/-- A label as it is written, which is read as it stands. -/
structure IsWritten (label : List Char) : Prop where
  letters : ∀ c ∈ label, IsLetter c
  reads : label? label = some label

theorem fold_digit : ∀ n < 123, Punycode.isDigit (Char.ofNat n) = true →
    fold (Char.ofNat n) = [Char.ofNat n] ∧ (Char.ofNat n == '.') = false ∧
      isForbidden (Char.ofNat n) = false := by
  decide +kernel

/-- The letters and digits of an encoded label may stand in a name. -/
theorem isLetter_of_isDigit {c : Char} (h : Punycode.isDigit c = true) :
    IsLetter c ∧ isForbidden c = false := by
  have hsmall : c.toNat < 123 := by
    have hval : c.val.toNat = c.toNat := rfl
    rw [Punycode.isDigit, Bool.or_eq_true] at h
    rcases h with h | h
    all_goals
      have hle := of_decide_eq_true (Bool.and_eq_true_iff.mp h).2
      have hle := UInt32.le_iff_toNat_le.mp hle
      simp at hle
      omega
  have hc := fold_digit c.toNat hsmall
  rw [Char.ofNat_toNat] at hc
  obtain ⟨hfolded, hundotted, hallowed⟩ := hc h
  exact ⟨⟨by omega, hfolded, hundotted⟩, hallowed⟩

theorem all_ascii {label : List Char} (h : ∀ c ∈ label, IsLetter c) :
    label.all (·.toNat < 128) = true := by
  rw [List.all_eq_true]
  exact fun c hc => decide_eq_true (h c hc).ascii

theorem isLetter_of_mem_encode {piece : List Char} {c : Char} (hfolded : ∀ c ∈ piece, IsFolded c)
    (hundotted : ∀ c ∈ piece, (c == '.') = false)
    (hc : c ∈ encodedMark ++ Punycode.encode piece) : IsLetter c := by
  rcases List.mem_append.mp hc with hc | hc
  · simp only [encodedMark, List.mem_cons, List.not_mem_nil, or_false] at hc
    rcases hc with rfl | rfl | rfl | rfl
    all_goals exact ⟨by decide, by rfl, rfl⟩
  · rcases Punycode.mem_encode hc with hbasic | rfl | hdigit
    · obtain ⟨hmem, hascii⟩ := List.mem_filter.mp hbasic
      exact ⟨by simpa using hascii, hfolded c hmem, hundotted c hmem⟩
    · exact ⟨by decide, by rfl, rfl⟩
    · exact (isLetter_of_isDigit hdigit).1

/-- The label that a label with characters outside of ASCII is written as. -/
theorem isWritten_encode {piece : List Char} (hfolded : ∀ c ∈ piece, IsFolded c)
    (hundotted : ∀ c ∈ piece, (c == '.') = false) (hsome : ∃ c ∈ piece, 128 ≤ c.toNat)
    (hallowed : piece.any isRefused = false) :
    IsWritten (encodedMark ++ Punycode.encode piece) := by
  have hletters : ∀ c ∈ encodedMark ++ Punycode.encode piece, IsLetter c :=
    fun c hc => isLetter_of_mem_encode hfolded hundotted hc
  refine ⟨hletters, ?_⟩
  -- The mark stands in front of a label that needs it, namely the one that was encoded.
  have hneeds : isEncodedLabel (Punycode.encode piece) = true := by
    unfold isEncodedLabel
    rw [Punycode.decode_encode]
    simp only [Bool.and_eq_true, List.any_eq_true, List.all_eq_true, decide_eq_true_eq, beq_iff_eq,
      Bool.not_eq_true']
    refine ⟨hsome, fun c hc => ⟨hfolded c hc, ?_⟩⟩
    rw [List.any_eq_false] at hallowed
    simpa using hallowed c hc
  unfold label?
  rw [if_pos (all_ascii hletters), if_neg]
  rintro ⟨-, hnot⟩
  exact hnot hneeds

/-- A folded label is written as one that stays. -/
theorem isWritten_of_label? {piece label : List Char} (h : label? piece = some label)
    (hfolded : ∀ c ∈ piece, IsFolded c) (hundotted : ∀ c ∈ piece, (c == '.') = false) :
    IsWritten label := by
  unfold label? at h
  by_cases hascii : piece.all (·.toNat < 128) = true
  · have hlabel := h
    rw [if_pos hascii] at h
    split at h
    · cases h
    · cases h
      have hlow : ∀ c ∈ piece, c.toNat < 128 := by simpa using hascii
      refine ⟨fun c hc => ⟨hlow c hc, hfolded c hc, hundotted c hc⟩, ?_⟩
      unfold label?
      exact hlabel
  · rw [if_neg hascii] at h
    split at h
    · cases h
    · next hmark =>
      cases h
      refine isWritten_encode hfolded hundotted ?_ (by simpa using fun hr => hmark (.inr hr))
      simpa using hascii

/-! ## Names -/

/-- A domain name as it is written. -/
structure IsName (name : List Char) : Prop where
  labelled : ∃ labels, labels ≠ [] ∧ (∀ label ∈ labels, IsWritten label) ∧
    name = ['.'].intercalate labels
  allowed : name.any isForbidden = false

variable {cs name : List Char}

/-- A domain name is written as one. -/
theorem isName_of_domainName (h : domainName cs = .ok name) : IsName name := by
  unfold domainName at h
  split at h
  · cases h
  · next s _ =>
    split at h
    · cases h
    · next labels hlabels =>
      simp only at h
      split at h
      · cases h
      · next hallowed =>
        cases h
        obtain ⟨hlength, hall⟩ := exists_of_mapM hlabels
        refine ⟨⟨labels, ?_, fun label hlabel => ?_, rfl⟩, by simpa using hallowed⟩
        · rw [← List.length_pos_iff, hlength, List.length_pos_iff]
          exact Text.cut_ne_nil _ _
        · obtain ⟨piece, hpiece, hwrite⟩ := hall label hlabel
          have hmem := Text.mem_of_mem_cut hpiece
          refine isWritten_of_label? hwrite (fun c hc => ?_) fun c hc => (hmem c hc).1
          obtain ⟨d, -, hd⟩ := List.mem_flatMap.mp (hmem c hc).2
          exact isFolded_of_mem_fold hd

theorem IsName.ascii_folded (h : IsName name) : ∀ c ∈ name, c.toNat < 128 ∧ IsFolded c := by
  obtain ⟨labels, -, hwritten, rfl⟩ := h.labelled
  intro c hc
  rcases Text.mem_intercalate hc with rfl | ⟨label, hlabel, hc⟩
  · exact ⟨by decide, rfl⟩
  · have hletter := (hwritten label hlabel).letters c hc
    exact ⟨hletter.ascii, hletter.folded⟩

theorem IsName.not_isForbidden (h : IsName name) : ∀ c ∈ name, isForbidden c = false := by
  simpa using h.allowed

/-- A name as it is written stays. -/
theorem IsName.domainName_eq (h : IsName name) : domainName name = .ok name := by
  have hascii : ∀ c ∈ name, c.toNat < 128 := fun c hc => (h.ascii_folded c hc).1
  have hfolded : ∀ c ∈ name, IsFolded c := fun c hc => (h.ascii_folded c hc).2
  -- There is nothing to decode, since a name cannot hold a percent sign.
  have hpercent : (0x25 : UInt8) ∉ name.map asciiByte := by
    intro hmem
    obtain ⟨c, hc, hbyte⟩ := List.mem_map.mp hmem
    have hnat := toNat_asciiByte (hascii c hc)
    rw [hbyte] at hnat
    have hforbidden := h.not_isForbidden c hc
    have hc' : c = '%' := by
      rw [← Char.ofNat_toNat c, ← hnat]
      rfl
    rw [hc'] at hforbidden
    cases hforbidden
  have hread : Bytes.text? (Percent.decode (utf8 (String.ofList name))) =
      some (String.ofList name) := by
    rw [utf8_ascii hascii, Percent.decode_eq_self hpercent, ← utf8_ascii hascii, Bytes.text?_utf8]
  obtain ⟨labels, hsome, hwritten, heq⟩ := h.labelled
  have hcut : Text.cut (· == '.') name = labels := by
    rw [heq]
    exact Text.cut_intercalate rfl hsome fun label hlabel c hc =>
      ((hwritten label hlabel).letters c hc).undotted
  unfold domainName
  simp only [hread, String.toList_ofList, flatMap_fold hfolded, hcut,
    mapM_eq_self fun label hlabel => (hwritten label hlabel).reads, ← heq, h.allowed,
    Bool.false_eq_true, if_false]

end MessageBus.Host
