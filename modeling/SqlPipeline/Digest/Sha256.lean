import SqlPipeline.Text.Hex

/-!
# SHA-256

The digest of a list of bytes: the padded message is cut into blocks of sixteen words, and each
block is mixed into eight words of state in sixty-four rounds.
-/

namespace SqlPipeline.Sha256

/-- The eight words that a block is mixed into. -/
structure State where
  a : UInt32
  b : UInt32
  c : UInt32
  d : UInt32
  e : UInt32
  f : UInt32
  g : UInt32
  h : UInt32
deriving DecidableEq

/-- The state before the first block. -/
def start : State :=
  ⟨0x6a09e667, 0xbb67ae85, 0x3c6ef372, 0xa54ff53a, 0x510e527f, 0x9b05688c, 0x1f83d9ab, 0x5be0cd19⟩

/-- One constant for each round. -/
def roundConstants : List UInt32 := [
  0x428a2f98, 0x71374491, 0xb5c0fbcf, 0xe9b5dba5, 0x3956c25b, 0x59f111f1, 0x923f82a4, 0xab1c5ed5,
  0xd807aa98, 0x12835b01, 0x243185be, 0x550c7dc3, 0x72be5d74, 0x80deb1fe, 0x9bdc06a7, 0xc19bf174,
  0xe49b69c1, 0xefbe4786, 0x0fc19dc6, 0x240ca1cc, 0x2de92c6f, 0x4a7484aa, 0x5cb0a9dc, 0x76f988da,
  0x983e5152, 0xa831c66d, 0xb00327c8, 0xbf597fc7, 0xc6e00bf3, 0xd5a79147, 0x06ca6351, 0x14292967,
  0x27b70a85, 0x2e1b2138, 0x4d2c6dfc, 0x53380d13, 0x650a7354, 0x766a0abb, 0x81c2c92e, 0x92722c85,
  0xa2bfe8a1, 0xa81a664b, 0xc24b8b70, 0xc76c51a3, 0xd192e819, 0xd6990624, 0xf40e3585, 0x106aa070,
  0x19a4c116, 0x1e376c08, 0x2748774c, 0x34b0bcb5, 0x391c0cb3, 0x4ed8aa4a, 0x5b9cca4f, 0x682e6ff3,
  0x748f82ee, 0x78a5636f, 0x84c87814, 0x8cc70208, 0x90befffa, 0xa4506ceb, 0xbef9a3f7, 0xc67178f2]

/-- Rotate a word to the right. -/
def rotate (word : UInt32) (count : UInt32) : UInt32 :=
  (word >>> count) ||| (word <<< (32 - count))

/-- Mix one word and one constant into the state. -/
def round (state : State) (constant word : UInt32) : State :=
  let sum := rotate state.e 6 ^^^ rotate state.e 11 ^^^ rotate state.e 25
  let choice := (state.e &&& state.f) ^^^ ((~~~state.e) &&& state.g)
  let first := state.h + sum + choice + constant + word
  let other := rotate state.a 2 ^^^ rotate state.a 13 ^^^ rotate state.a 22
  let majority := (state.a &&& state.b) ^^^ (state.a &&& state.c) ^^^ (state.b &&& state.c)
  ⟨first + (other + majority), state.a, state.b, state.c,
    state.d + first, state.e, state.f, state.g⟩

/-- The word that follows sixteen words of the schedule. -/
def nextWord (window : List UInt32) : UInt32 :=
  let word := fun i => window.getD i 0
  let early := rotate (word 1) 7 ^^^ rotate (word 1) 18 ^^^ (word 1 >>> 3)
  let late := rotate (word 14) 17 ^^^ rotate (word 14) 19 ^^^ (word 14 >>> 10)
  word 0 + early + word 9 + late

/-- One round for each constant, over a window of sixteen words that moves along the schedule. -/
def rounds : List UInt32 → List UInt32 → State → State
  | constant :: constants, word :: window, state =>
    rounds constants (window ++ [nextWord (word :: window)]) (round state constant word)
  | _, _, state => state

/-- Mix a block of sixteen words into the state. -/
def compress (state : State) (block : List UInt32) : State :=
  let mixed := rounds roundConstants block state
  ⟨state.a + mixed.a, state.b + mixed.b, state.c + mixed.c, state.d + mixed.d, state.e + mixed.e,
    state.f + mixed.f, state.g + mixed.g, state.h + mixed.h⟩

/-- The big-endian words of a list of bytes. -/
def words : List UInt8 → List UInt32
  | a :: b :: c :: d :: rest =>
    ((a.toUInt32 <<< 24) ||| (b.toUInt32 <<< 16) ||| (c.toUInt32 <<< 8) ||| d.toUInt32)
      :: words rest
  | _ => []

/-- The big-endian bytes of a word. -/
def bytes (word : UInt32) : List UInt8 :=
  [(word >>> 24).toUInt8, (word >>> 16).toUInt8, (word >>> 8).toUInt8, word.toUInt8]

/-- A message followed by a one bit, zeros, and its length in bits, up to a whole block. -/
def pad (message : List UInt8) : List UInt8 :=
  let length := message.length
  message ++ 0x80 :: List.replicate ((119 - length % 64) % 64) 0
    ++ (List.range 8).map fun i => UInt8.ofNat (8 * length / Nat.pow 256 (7 - i))

/-- Mix the blocks of a number of words into the state. -/
def compressBlocks : Nat → List UInt32 → State → State
  | 0, _, state => state
  | blocks + 1, words, state =>
    compressBlocks blocks (words.drop 16) (compress state (words.take 16))

/-- The digest of a message, as thirty-two bytes. -/
def digest (message : List UInt8) : List UInt8 :=
  let words := words (pad message)
  let final := compressBlocks (words.length / 16) words start
  [final.a, final.b, final.c, final.d, final.e, final.f, final.g, final.h].flatMap bytes

/-- The digest of a message in hexadecimal digits. -/
def hexDigest (message : List UInt8) : String := Text.hexOfBytes (digest message)

/-- The digest of a text in its UTF-8 encoding. -/
def ofText (text : String) : String := hexDigest text.toUTF8.toList

end SqlPipeline.Sha256
