import MessageBus.Text.Bytes

/-!
# Cipher feedback

A stream of bytes encrypted with a block function: each block of the text is added to the encrypted
block before it, the first one to the encrypted initialization vector.  The block function is a
parameter and is never inverted.

## Main statements

* `decrypt_encrypt`, `encrypt_decrypt` : for every block function that keeps the size of a block the
  two directions are inverse.
* `length_encrypt` : the text keeps its length.
-/

namespace MessageBus.Feedback

/-- Encrypts with the key bytes left for this block, given the cipher bytes of this block so far.
When the key bytes run out, the finished block makes the next ones. -/
def encryptFrom (block : Bytes → Bytes) : (keys done plain : Bytes) → Bytes
  | _, _, [] => []
  | k :: keys, done, p :: plain =>
    let c := p ^^^ k
    c :: encryptFrom block keys (done ++ [c]) plain
  | [], done, p :: plain =>
    match block done with
    | [] => []
    | k :: keys =>
      let c := p ^^^ k
      c :: encryptFrom block keys [c] plain

/-- Decrypts, with the same key bytes made from the cipher text. -/
def decryptFrom (block : Bytes → Bytes) : (keys done cipher : Bytes) → Bytes
  | _, _, [] => []
  | k :: keys, done, c :: cipher => (c ^^^ k) :: decryptFrom block keys (done ++ [c]) cipher
  | [], done, c :: cipher =>
    match block done with
    | [] => []
    | k :: keys => (c ^^^ k) :: decryptFrom block keys [c] cipher

/-- Encrypts a text after an initialization vector. -/
def encrypt (block : Bytes → Bytes) (vector plain : Bytes) : Bytes :=
  encryptFrom block (block vector) [] plain

/-- Decrypts a text after an initialization vector. -/
def decrypt (block : Bytes → Bytes) (vector cipher : Bytes) : Bytes :=
  decryptFrom block (block vector) [] cipher

theorem xor_xor_cancel (a b : UInt8) : (a ^^^ b) ^^^ b = a := by
  rw [UInt8.xor_assoc, UInt8.xor_self, UInt8.xor_zero]

/-- Whether a block function makes a block of the size out of every block of that size. -/
def KeepsSize (size : Nat) (block : Bytes → Bytes) : Prop :=
  ∀ b : Bytes, b.length = size → (block b).length = size

/-- The cipher bytes of a block so far and the key bytes left for it make up a block. -/
def Fills (size : Nat) (done keys : Bytes) : Prop := done.length + keys.length = size

section KeepsSize

variable {size : Nat} {block : Bytes → Bytes} {done keys vector : Bytes}

theorem Fills.step {k : UInt8} (h : Fills size done (k :: keys)) (c : UInt8) :
    Fills size (done ++ [c]) keys := by
  simp only [Fills, List.length_append, List.length_cons, List.length_nil] at h ⊢
  omega

/-- A full block of cipher bytes gives key bytes for the next one. -/
theorem Fills.next (h : Fills size done []) (hsize : 0 < size) (hblock : KeepsSize size block) :
    ∃ k keys, block done = k :: keys ∧ ∀ c, Fills size [c] keys := by
  have hlength : (block done).length = size := hblock done h
  cases hnext : block done with
  | nil =>
    rw [hnext] at hlength
    exact absurd hlength (Nat.ne_of_lt hsize)
  | cons k keys =>
    rw [hnext, List.length_cons] at hlength
    exact ⟨k, keys, rfl, fun _ => (Nat.add_comm ..).trans hlength⟩

theorem Fills.first (hblock : KeepsSize size block) (hvector : vector.length = size) :
    Fills size [] (block vector) :=
  (Nat.zero_add _).trans (hblock vector hvector)

theorem decryptFrom_encryptFrom (hsize : 0 < size) (hblock : KeepsSize size block)
    (hfills : Fills size done keys) (plain : Bytes) :
    decryptFrom block keys done (encryptFrom block keys done plain) = plain := by
  induction plain generalizing keys done with
  | nil => cases keys <;> rfl
  | cons p plain ih =>
    cases keys with
    | cons k keys => simp only [encryptFrom, decryptFrom, xor_xor_cancel, ih (hfills.step _)]
    | nil =>
      obtain ⟨k, keys, hnext, hrest⟩ := hfills.next hsize hblock
      simp only [encryptFrom, decryptFrom, hnext, xor_xor_cancel, ih (hrest _)]

theorem encryptFrom_decryptFrom (hsize : 0 < size) (hblock : KeepsSize size block)
    (hfills : Fills size done keys) (cipher : Bytes) :
    encryptFrom block keys done (decryptFrom block keys done cipher) = cipher := by
  induction cipher generalizing keys done with
  | nil => cases keys <;> rfl
  | cons c cipher ih =>
    cases keys with
    | cons k keys => simp only [encryptFrom, decryptFrom, xor_xor_cancel, ih (hfills.step _)]
    | nil =>
      obtain ⟨k, keys, hnext, hrest⟩ := hfills.next hsize hblock
      simp only [encryptFrom, decryptFrom, hnext, xor_xor_cancel, ih (hrest _)]

theorem length_encryptFrom (hsize : 0 < size) (hblock : KeepsSize size block)
    (hfills : Fills size done keys) (plain : Bytes) :
    (encryptFrom block keys done plain).length = plain.length := by
  induction plain generalizing keys done with
  | nil => cases keys <;> rfl
  | cons p plain ih =>
    cases keys with
    | cons k keys => simp only [encryptFrom, List.length_cons, ih (hfills.step _)]
    | nil =>
      obtain ⟨k, keys, hnext, hrest⟩ := hfills.next hsize hblock
      simp only [encryptFrom, hnext, List.length_cons, ih (hrest _)]

theorem decrypt_encrypt (hsize : 0 < size) (hblock : KeepsSize size block)
    (hvector : vector.length = size) (plain : Bytes) :
    decrypt block vector (encrypt block vector plain) = plain :=
  decryptFrom_encryptFrom hsize hblock (.first hblock hvector) plain

theorem encrypt_decrypt (hsize : 0 < size) (hblock : KeepsSize size block)
    (hvector : vector.length = size) (cipher : Bytes) :
    encrypt block vector (decrypt block vector cipher) = cipher :=
  encryptFrom_decryptFrom hsize hblock (.first hblock hvector) cipher

theorem length_encrypt (hsize : 0 < size) (hblock : KeepsSize size block)
    (hvector : vector.length = size) (plain : Bytes) :
    (encrypt block vector plain).length = plain.length :=
  length_encryptFrom hsize hblock (.first hblock hvector) plain

end KeepsSize

end MessageBus.Feedback
