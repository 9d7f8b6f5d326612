import MessageBus.Text.Bytes

/-!
# The AES block cipher

Encryption of one block of sixteen bytes with a key of 16, 24 or 32 bytes.  The state is four
columns of four bytes.  The S-box is computed from its definition: the inverse in
GF(2⁸), then an affine map.

## Main statements

* `length_encrypt` : an encrypted block has sixteen bytes.
-/

namespace MessageBus.Aes

/-- The key sizes of the cipher, in bytes. -/
def isKeySize (n : Nat) : Bool := n == 16 || n == 24 || n == 32

/-- Multiplication by `x` in GF(2⁸), modulo x⁸ + x⁴ + x³ + x + 1. -/
def double (b : UInt8) : UInt8 :=
  if b < 0x80 then b <<< 1 else (b <<< 1) ^^^ 0x1B

/-- Multiplication in GF(2⁸), over the eight bits of the first factor from the lowest on. -/
def times (a b : UInt8) : UInt8 :=
  let rec go (a b acc : UInt8) : Nat → UInt8
    | 0 => acc
    | n + 1 => go (a >>> 1) (double b) (if a &&& 1 = 1 then acc ^^^ b else acc) n
  go a b 0 8

/-- The inverse in GF(2⁸), which is the power 254; zero stays zero. -/
def inverse (a : UInt8) : UInt8 :=
  let a2 := times a a
  let a4 := times a2 a2
  let a8 := times a4 a4
  let a16 := times a8 a8
  let a32 := times a16 a16
  let a64 := times a32 a32
  let a128 := times a64 a64
  -- 254 = 128 + 64 + 32 + 16 + 8 + 4 + 2
  times a128 (times a64 (times a32 (times a16 (times a8 (times a4 a2)))))

/-- Rotation of a byte to the left. -/
def rotateLeft (b n : UInt8) : UInt8 := (b <<< n) ||| (b >>> (8 - n))

/-- The substitution of one byte. -/
def substitute (b : UInt8) : UInt8 :=
  let i := inverse b
  i ^^^ rotateLeft i 1 ^^^ rotateLeft i 2 ^^^ rotateLeft i 3 ^^^ rotateLeft i 4 ^^^ 0x63

/-- The substitution as a table of 256 bytes. -/
def sBox : Array UInt8 := (Array.range 256).map fun n => substitute (UInt8.ofNat n)

/-- The substitution by table. -/
def sub (b : UInt8) : UInt8 := sBox.getD b.toNat 0

/-- A column of the state, or a word of the key schedule. -/
structure Word where
  b0 : UInt8
  b1 : UInt8
  b2 : UInt8
  b3 : UInt8
  deriving Inhabited, DecidableEq, Repr

namespace Word

/-- The sum in GF(2⁸), byte by byte. -/
def xor (v w : Word) : Word := ⟨v.b0 ^^^ w.b0, v.b1 ^^^ w.b1, v.b2 ^^^ w.b2, v.b3 ^^^ w.b3⟩

/-- The substitution of each byte. -/
def sub (w : Word) : Word := ⟨Aes.sub w.b0, Aes.sub w.b1, Aes.sub w.b2, Aes.sub w.b3⟩

/-- The bytes moved up by one place. -/
def rotate (w : Word) : Word := ⟨w.b1, w.b2, w.b3, w.b0⟩

/-- The column multiplied with the matrix of the cipher. -/
def mix (w : Word) : Word :=
  let all := w.b0 ^^^ w.b1 ^^^ w.b2 ^^^ w.b3
  ⟨w.b0 ^^^ all ^^^ double (w.b0 ^^^ w.b1), w.b1 ^^^ all ^^^ double (w.b1 ^^^ w.b2),
   w.b2 ^^^ all ^^^ double (w.b2 ^^^ w.b3), w.b3 ^^^ all ^^^ double (w.b3 ^^^ w.b0)⟩

/-- The bytes of a word. -/
def bytes (w : Word) : Bytes := [w.b0, w.b1, w.b2, w.b3]

end Word

/-- The state: four columns. -/
structure Block where
  c0 : Word
  c1 : Word
  c2 : Word
  c3 : Word
  deriving Inhabited, DecidableEq, Repr

namespace Block

/-- The columns, each passed through `f`. -/
def map (f : Word → Word) (s : Block) : Block := ⟨f s.c0, f s.c1, f s.c2, f s.c3⟩

/-- The sum with a round key. -/
def xor (s k : Block) : Block := ⟨s.c0.xor k.c0, s.c1.xor k.c1, s.c2.xor k.c2, s.c3.xor k.c3⟩

/-- Row `r` moves to the left by `r` places. -/
def shiftRows (s : Block) : Block :=
  ⟨⟨s.c0.b0, s.c1.b1, s.c2.b2, s.c3.b3⟩, ⟨s.c1.b0, s.c2.b1, s.c3.b2, s.c0.b3⟩,
   ⟨s.c2.b0, s.c3.b1, s.c0.b2, s.c1.b3⟩, ⟨s.c3.b0, s.c0.b1, s.c1.b2, s.c2.b3⟩⟩

/-- The sixteen bytes of a state. -/
def bytes (s : Block) : Bytes := s.c0.bytes ++ s.c1.bytes ++ s.c2.bytes ++ s.c3.bytes

/-- The state with given bytes; missing ones count as zero. -/
def ofBytes (b : Bytes) : Block :=
  let word (i : Nat) : Word := ⟨b.getD i 0, b.getD (i + 1) 0, b.getD (i + 2) 0, b.getD (i + 3) 0⟩
  ⟨word 0, word 4, word 8, word 12⟩

theorem length_bytes (s : Block) : s.bytes.length = 16 := rfl

end Block

/-! ## The key schedule -/

/-- The words of a key. -/
def keyWords : Bytes → List Word
  | a :: b :: c :: d :: rest => ⟨a, b, c, d⟩ :: keyWords rest
  | _ => []

/-- Extends the schedule by `count` words.  `words` holds the words so far with the latest first,
`size` is the number of words of the key and `constant` the next round constant. -/
def extend (size : Nat) (words : List Word) (index : Nat) (constant : UInt8) : Nat → List Word
  | 0 => words
  | count + 1 =>
    let last := words.headD default
    let back := words.getD (size - 1) default
    -- the first word of each key length also passes through the substitution
    if index % size = 0 then
      let mixed := last.rotate.sub.xor ⟨constant, 0, 0, 0⟩
      extend size (back.xor mixed :: words) (index + 1) (double constant) count
    else
      -- keys of eight words pass through it once more, in the middle
      let mixed := if 6 < size ∧ index % size = 4 then last.sub else last
      extend size (back.xor mixed :: words) (index + 1) constant count

/-- Groups of four words as round keys. -/
def rounds : List Word → List Block
  | a :: b :: c :: d :: rest => ⟨a, b, c, d⟩ :: rounds rest
  | _ => []

/-- The round keys of a key: six more than it has words, and one. -/
def schedule (key : Bytes) : List Block :=
  let words := keyWords key
  let size := words.length
  -- four words for each of the `size + 7` round keys, of which the key itself gives `size`
  rounds (extend size words.reverse size 1 (4 * (size + 7) - size)).reverse

/-- The rounds with the remaining round keys; the last one does not mix columns. -/
def runRounds (s : Block) : List Block → Block
  | [] => s
  | [last] => ((s.map Word.sub).shiftRows).xor last
  | k :: rest => runRounds (((s.map Word.sub).shiftRows.map Word.mix).xor k) rest

/-- Encrypts one block with round keys. -/
def encryptWith (keys : List Block) (block : Bytes) : Bytes :=
  match keys with
  | [] => (Block.ofBytes block).bytes
  | k :: rest => (runRounds ((Block.ofBytes block).xor k) rest).bytes

/-- Encrypts one block of sixteen bytes. -/
def encrypt (key : Bytes) : Bytes → Bytes := encryptWith (schedule key)

theorem length_encryptWith (keys : List Block) (block : Bytes) :
    (encryptWith keys block).length = 16 := by
  cases keys <;> exact Block.length_bytes _

theorem length_encrypt (key block : Bytes) : (encrypt key block).length = 16 :=
  length_encryptWith _ _

end MessageBus.Aes
