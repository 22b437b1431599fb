import Mathlib.Algebra.Group.Nat.Defs
import Mathlib.Data.List.Basic

/-!
# The secure hash with 256-bit digests

A message is padded to whole blocks of sixty-four bytes, each block is expanded
into sixty-four words, and sixty-four rounds mix the words into eight chaining
words. The digest is their big-endian text in lower-case hexadecimal.

Nothing here depends on the round function being hard to invert. What the
development uses is the shape of a digest: sixty-four hexadecimal digits,
whatever the message.
-/

namespace Immutavault.Digests

/-- The round constants. -/
def roundConstants : List UInt32 :=
  [0x428a2f98, 0x71374491, 0xb5c0fbcf, 0xe9b5dba5, 0x3956c25b, 0x59f111f1, 0x923f82a4, 0xab1c5ed5,
   0xd807aa98, 0x12835b01, 0x243185be, 0x550c7dc3, 0x72be5d74, 0x80deb1fe, 0x9bdc06a7, 0xc19bf174,
   0xe49b69c1, 0xefbe4786, 0x0fc19dc6, 0x240ca1cc, 0x2de92c6f, 0x4a7484aa, 0x5cb0a9dc, 0x76f988da,
   0x983e5152, 0xa831c66d, 0xb00327c8, 0xbf597fc7, 0xc6e00bf3, 0xd5a79147, 0x06ca6351, 0x14292967,
   0x27b70a85, 0x2e1b2138, 0x4d2c6dfc, 0x53380d13, 0x650a7354, 0x766a0abb, 0x81c2c92e, 0x92722c85,
   0xa2bfe8a1, 0xa81a664b, 0xc24b8b70, 0xc76c51a3, 0xd192e819, 0xd6990624, 0xf40e3585, 0x106aa070,
   0x19a4c116, 0x1e376c08, 0x2748774c, 0x34b0bcb5, 0x391c0cb3, 0x4ed8aa4a, 0x5b9cca4f, 0x682e6ff3,
   0x748f82ee, 0x78a5636f, 0x84c87814, 0x8cc70208, 0x90befffa, 0xa4506ceb, 0xbef9a3f7, 0xc67178f2]

/-- The eight chaining words. -/
structure Chain where
  a : UInt32
  b : UInt32
  c : UInt32
  d : UInt32
  e : UInt32
  f : UInt32
  g : UInt32
  h : UInt32

/-- The chaining words before the first block. -/
def Chain.initial : Chain :=
  ⟨0x6a09e667, 0xbb67ae85, 0x3c6ef372, 0xa54ff53a, 0x510e527f, 0x9b05688c, 0x1f83d9ab, 0x5be0cd19⟩

def Chain.words (chain : Chain) : List UInt32 :=
  [chain.a, chain.b, chain.c, chain.d, chain.e, chain.f, chain.g, chain.h]

def Chain.add (first second : Chain) : Chain :=
  ⟨first.a + second.a, first.b + second.b, first.c + second.c, first.d + second.d,
   first.e + second.e, first.f + second.f, first.g + second.g, first.h + second.h⟩

def rotateRight (word : UInt32) (count : UInt32) : UInt32 :=
  (word >>> count) ||| (word <<< (32 - count))

/-- One round. -/
def Chain.round (chain : Chain) (constant word : UInt32) : Chain :=
  let sum1 := rotateRight chain.e 6 ^^^ rotateRight chain.e 11 ^^^ rotateRight chain.e 25
  let choice := (chain.e &&& chain.f) ^^^ (~~~chain.e &&& chain.g)
  let first := chain.h + sum1 + choice + constant + word
  let sum0 := rotateRight chain.a 2 ^^^ rotateRight chain.a 13 ^^^ rotateRight chain.a 22
  let majority := (chain.a &&& chain.b) ^^^ (chain.a &&& chain.c) ^^^ (chain.b &&& chain.c)
  ⟨first + (sum0 + majority), chain.a, chain.b, chain.c, chain.d + first, chain.e, chain.f, chain.g⟩

/-- Big-endian words of a byte string. -/
def bigEndian : List UInt8 → List UInt32
  | first :: second :: third :: fourth :: rest =>
    ((first.toUInt32 <<< 24) ||| (second.toUInt32 <<< 16) ||| (third.toUInt32 <<< 8) |||
      fourth.toUInt32) :: bigEndian rest
  | _ => []

/-- Extend a schedule by so many words; the latest word stands first. -/
def extend : ℕ → List UInt32 → List UInt32
  | 0, schedule => schedule
  | count + 1, schedule =>
    let before (distance : ℕ) := schedule.getD (distance - 1) 0
    let small0 := rotateRight (before 15) 7 ^^^ rotateRight (before 15) 18 ^^^ (before 15 >>> 3)
    let small1 := rotateRight (before 2) 17 ^^^ rotateRight (before 2) 19 ^^^ (before 2 >>> 10)
    extend count ((before 16 + small0 + before 7 + small1) :: schedule)

/-- Mix one block into the chaining words. -/
def Chain.compress (chain : Chain) (block : List UInt8) : Chain :=
  let schedule := (extend 48 (bigEndian block).reverse).reverse
  chain.add ((roundConstants.zip schedule).foldl (fun mixed pair => mixed.round pair.1 pair.2) chain)

/-- The bytes of a number, most significant first. -/
def bigEndianBytes (count value : ℕ) : List UInt8 :=
  (List.range count).reverse.map fun position => UInt8.ofNat (value / 256 ^ position)

/-- The message, one marker bit, zeros, and the length in bits. -/
def pad (message : List UInt8) : List UInt8 :=
  message ++ 0x80 :: List.replicate ((119 - message.length % 64) % 64) 0 ++
    bigEndianBytes 8 (8 * message.length)

/-- Mix all blocks, in order. The count bounds the number of blocks. -/
def absorb : ℕ → Chain → List UInt8 → Chain
  | 0, chain, _ => chain
  | count + 1, chain, bytes => absorb count (chain.compress (bytes.take 64)) (bytes.drop 64)

def hexDigit (value : ℕ) : Char := (Nat.digitChar value)

/-- Eight hexadecimal digits of a word. -/
def hexWord (word : UInt32) : List Char :=
  (List.range 8).reverse.map fun position => hexDigit (word.toNat / 16 ^ position % 16)

/-- The hexadecimal digest of a byte string. -/
def sha256Hexdigest (message : List UInt8) : String :=
  String.ofList
    ((absorb ((pad message).length / 64) .initial (pad message)).words.flatMap hexWord)

/-- A digest has sixty-four digits. -/
theorem length_sha256Hexdigest (message : List UInt8) : (sha256Hexdigest message).length = 64 := by
  simp [sha256Hexdigest, Chain.words, hexWord]

end Immutavault.Digests
