import MessageBus.Cipher.Sealed
import MessageBus.Proofs.Text.CanonicalBase64
import MessageBus.Proofs.Text.Trimming

/-! # Sealing and opening undo each other

    What is opened is the text that was sealed, whatever blanks stand around the
    body.  The other way round, every body that opens at all is, without the
    blanks around it, what sealing makes of the text that came out, with the
    initialization vector that the body begins with.  None of this depends on
    AES: feedback needs no inverse of the block function, only that it makes
    blocks out of blocks.

    * `openBy_closeBy`: opening what was sealed.
    * `closeBy_of_openBy`: sealing what was opened.
    * `opens_exactly_what_seals`: both, for every block function. -/

namespace MessageBus

namespace Sealed

variable {cipher : Bytes → Bytes → Bytes} {key vector plain wire : Bytes} {body : String}

/-! ## When a body is sealed, and when it opens -/

theorem closeBy_eq_ok_iff :
    closeBy cipher key vector plain = .ok body ↔
      Aes.isKeySize key.length = true ∧
        body = Base64.encode (vector ++ Feedback.encrypt (cipher key) vector plain) := by
  rw [closeBy]
  split
  · next hkey => simp [hkey, eq_comm]
  · next hkey => simp [hkey]

theorem openBy_eq_ok_iff :
    openBy cipher key wire = .ok plain ↔
      ∃ data, Base64.decode (Bytes.trim wire) = .ok data ∧ vectorSize ≤ data.length ∧
        Aes.isKeySize key.length = true ∧
        plain = Feedback.decrypt (cipher key) (data.take vectorSize) (data.drop vectorSize) := by
  rw [openBy]
  split
  · next hdecode => simp [hdecode]
  · next data hdecode =>
    simp only [hdecode, Except.ok.injEq, exists_eq_left']
    split
    · next hshort => simp [Nat.not_le.mpr hshort]
    · next hlong =>
      have hlong := Nat.le_of_not_lt hlong
      split
      · next hkey => simp [hlong, hkey, eq_comm]
      · next hkey => simp [hkey]

/-! ## Opening what was sealed -/

/-- A sealed body has no blanks. -/
theorem not_isBlank_of_closeBy (h : closeBy cipher key vector plain = .ok body) :
    ∀ b ∈ utf8 body, Bytes.isBlank b = false := by
  obtain ⟨-, rfl⟩ := closeBy_eq_ok_iff.mp h
  intro b hb
  rw [Base64.utf8_encode] at hb
  exact (Base64.plain_encodeBytes hb).1

theorem openBy_closeBy (hcipher : Feedback.KeepsSize vectorSize (cipher key))
    (hvector : vector.length = vectorSize) (h : closeBy cipher key vector plain = .ok body)
    {left right : Bytes} (hleft : ∀ b ∈ left, Bytes.isBlank b = true)
    (hright : ∀ b ∈ right, Bytes.isBlank b = true) :
    openBy cipher key (left ++ utf8 body ++ right) = .ok plain := by
  have hblank := not_isBlank_of_closeBy h
  obtain ⟨hkey, rfl⟩ := closeBy_eq_ok_iff.mp h
  rw [openBy_eq_ok_iff, Bytes.trim_padded hleft hblank hright, Base64.utf8_encode,
    Base64.decode_encodeBytes]
  refine ⟨_, rfl, ?_, hkey, ?_⟩
  · rw [List.length_append, hvector]
    exact Nat.le_add_right ..
  · rw [← hvector, List.take_left, List.drop_left,
      Feedback.decrypt_encrypt (by decide) hcipher hvector]

/-! ## Sealing what was opened -/

theorem closeBy_of_openBy (hcipher : Feedback.KeepsSize vectorSize (cipher key))
    (h : openBy cipher key wire = .ok plain) :
    ∃ data body, Base64.decode (Bytes.trim wire) = .ok data ∧
      (data.take vectorSize).length = vectorSize ∧
      closeBy cipher key (data.take vectorSize) plain = .ok body ∧
      Bytes.trim wire = utf8 body := by
  obtain ⟨data, hdecode, hlong, hkey, rfl⟩ := openBy_eq_ok_iff.mp h
  have hvector : (data.take vectorSize).length = vectorSize := List.length_take_of_le hlong
  refine ⟨data, Base64.encode data, hdecode, hvector, ?_, ?_⟩
  · rw [closeBy_eq_ok_iff, Feedback.encrypt_decrypt (by decide) hcipher hvector,
      List.take_append_drop]
    exact ⟨hkey, rfl⟩
  · rw [Base64.utf8_encode, Base64.encodeBytes_of_decode hdecode]

/-! ## Main theorem -/

theorem isKeySize_iff {n : Nat} : Aes.isKeySize n = true ↔ n ∈ [16, 24, 32] := by
  simp [Aes.isKeySize, or_assoc]

/-- With a key of a usable size everything is sealed and, with any blanks around
    the body, opened again; and what opens is, with blanks around it, the body
    that sealing makes of the text that came out and the vector in front. -/
theorem opens_exactly_what_seals (hkey : key.length ∈ [16, 24, 32])
    (hcipher : ∀ block : Bytes, block.length = 16 → (cipher key block).length = 16) :
    (∀ vector plain left right : Bytes, vector.length = 16 →
      (∀ b ∈ left ++ right, b ∈ [0x20, 0x09, 0x0A, 0x0D, 0x0C]) →
      ∃ body, closeBy cipher key vector plain = .ok body ∧
        openBy cipher key (left ++ utf8 body ++ right) = .ok plain) ∧
    (∀ wire plain : Bytes, openBy cipher key wire = .ok plain →
      ∃ data body, Base64.decode (Bytes.trim wire) = .ok data ∧
        (data.take 16).length = 16 ∧ closeBy cipher key (data.take 16) plain = .ok body ∧
        Bytes.trim wire = utf8 body ∧
        ∃ left right, (∀ b ∈ left ++ right, b ∈ [0x20, 0x09, 0x0A, 0x0D, 0x0C]) ∧
          wire = left ++ utf8 body ++ right) := by
  refine ⟨?_, ?_⟩
  · intro vector plain left right hvector hblank
    have hclose : closeBy cipher key vector plain = .ok _ :=
      closeBy_eq_ok_iff.mpr ⟨isKeySize_iff.mpr hkey, rfl⟩
    refine ⟨_, hclose, openBy_closeBy hcipher hvector hclose ?_ ?_⟩
    · intro b hb
      exact Bytes.isBlank_iff.mpr (hblank b (List.mem_append_left _ hb))
    · intro b hb
      exact Bytes.isBlank_iff.mpr (hblank b (List.mem_append_right _ hb))
  · intro wire plain hopen
    obtain ⟨data, body, hdecode, hvector, hclose, htrim⟩ := closeBy_of_openBy hcipher hopen
    obtain ⟨left, right, hleft, hright, hwire⟩ := Bytes.exists_padding wire
    refine ⟨data, body, hdecode, hvector, hclose, htrim, left, right, ?_, htrim ▸ hwire⟩
    intro b hb
    exact Bytes.isBlank_iff.mp ((List.mem_append.mp hb).elim (hleft b) (hright b))

/-- Twenty bytes under AES with a key of 24 bytes, a form feed and a space in front
    of the body and a line break behind it. -/
theorem opens_exactly_what_seals_aes :
    let key := utf8 "0123456789abcdefghijklmn"
    let vector : Bytes := List.replicate 16 7
    let plain := utf8 "\x7b\"type\":\"TestAuth\"\x7d"
    let left : Bytes := [0x0C, 0x20]
    let right : Bytes := [0x0D, 0x0A]
    (key.length ∈ [16, 24, 32] ∧
      (∀ block : Bytes, block.length = 16 → (Aes.encrypt key block).length = 16) ∧
      vector.length = 16 ∧ ∀ b ∈ left ++ right, b ∈ [0x20, 0x09, 0x0A, 0x0D, 0x0C]) ∧
    ∃ body, close key vector plain = .ok body ∧
      openWith key (left ++ utf8 body ++ right) = .ok plain ∧
      ∃ data again, Base64.decode (Bytes.trim (left ++ utf8 body ++ right)) = .ok data ∧
        close key (data.take 16) plain = .ok again ∧
        Bytes.trim (left ++ utf8 body ++ right) = utf8 again := by
  intro key vector plain left right
  have hkey : key.length ∈ [16, 24, 32] := by decide
  have hcipher : ∀ block : Bytes, block.length = 16 → (Aes.encrypt key block).length = 16 :=
    fun block _ => Aes.length_encrypt key block
  have hvector : vector.length = 16 := rfl
  have hblank : ∀ b ∈ left ++ right, b ∈ [0x20, 0x09, 0x0A, 0x0D, 0x0C] := by
    simp [left, right]
  have hboth := opens_exactly_what_seals hkey hcipher
  obtain ⟨body, hclose, hopen⟩ := hboth.1 vector plain left right hvector hblank
  obtain ⟨data, again, hdecode, -, hagain, htrim, -⟩ := hboth.2 _ plain hopen
  exact ⟨⟨hkey, hcipher, hvector, hblank⟩, body, hclose, hopen, data, again, hdecode, hagain, htrim⟩

end Sealed

end MessageBus
