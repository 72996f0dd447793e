import Mathlib.Data.List.Basic

/-!
# SHA-256

The digest on lists of bytes. The padded message is cut into blocks of 64 bytes; each
block gives a schedule of 64 words, and a round for each word changes the eight words of the state.
-/

namespace SecureHash

/-- The eight words of the state. -/
structure Words where
  a : UInt32
  b : UInt32
  c : UInt32
  d : UInt32
  e : UInt32
  f : UInt32
  g : UInt32
  h : UInt32

/-- The square roots of the first eight primes, after the point. -/
def initial : Words :=
  ⟨0x6a09e667, 0xbb67ae85, 0x3c6ef372, 0xa54ff53a, 0x510e527f, 0x9b05688c,
    0x1f83d9ab, 0x5be0cd19⟩

/-- The cube roots of the first 64 primes, after the point. -/
def roundConstants : List UInt32 :=
  [
    0x428a2f98, 0x71374491, 0xb5c0fbcf, 0xe9b5dba5, 0x3956c25b, 0x59f111f1, 0x923f82a4, 0xab1c5ed5,
    0xd807aa98, 0x12835b01, 0x243185be, 0x550c7dc3, 0x72be5d74, 0x80deb1fe, 0x9bdc06a7, 0xc19bf174,
    0xe49b69c1, 0xefbe4786, 0x0fc19dc6, 0x240ca1cc, 0x2de92c6f, 0x4a7484aa, 0x5cb0a9dc, 0x76f988da,
    0x983e5152, 0xa831c66d, 0xb00327c8, 0xbf597fc7, 0xc6e00bf3, 0xd5a79147, 0x06ca6351, 0x14292967,
    0x27b70a85, 0x2e1b2138, 0x4d2c6dfc, 0x53380d13, 0x650a7354, 0x766a0abb, 0x81c2c92e, 0x92722c85,
    0xa2bfe8a1, 0xa81a664b, 0xc24b8b70, 0xc76c51a3, 0xd192e819, 0xd6990624, 0xf40e3585, 0x106aa070,
    0x19a4c116, 0x1e376c08, 0x2748774c, 0x34b0bcb5, 0x391c0cb3, 0x4ed8aa4a, 0x5b9cca4f, 0x682e6ff3,
    0x748f82ee, 0x78a5636f, 0x84c87814, 0x8cc70208, 0x90befffa, 0xa4506ceb, 0xbef9a3f7, 0xc67178f2]

def rotateRight (x n : UInt32) : UInt32 := (x >>> n) ||| (x <<< (32 - n))

/-! ## Bytes and words -/

/-- The number that some bytes write, the first one counting most. -/
def word (bytes : List UInt8) : UInt32 := bytes.foldl (fun w b => (w <<< 8) ||| b.toUInt32) 0

/-- The four bytes of a word. -/
def bytesOf (w : UInt32) : List UInt8 :=
  [(w >>> 24).toUInt8, (w >>> 16).toUInt8, (w >>> 8).toUInt8, w.toUInt8]

/-- The message with its end mark, zeros up to a whole block, and its length in bits. -/
def pad (message : List UInt8) : List UInt8 :=
  message ++ 0x80 :: (List.replicate ((119 - message.length % 64) % 64) 0 ++
    (List.range 8).map fun i => UInt8.ofNat ((8 * message.length).shiftRight (8 * (7 - i))))

/-- The pieces of `n` elements. -/
def pieces {α : Type} (n count : Nat) (l : List α) : List (List α) :=
  (List.range count).map fun i => (l.drop (n * i)).take n

/-! ## Blocks -/

/-- The next word of a schedule whose words stand newest first. -/
def nextWord (ws : List UInt32) : UInt32 :=
  let s0 := fun x => rotateRight x 7 ^^^ rotateRight x 18 ^^^ (x >>> 3)
  let s1 := fun x => rotateRight x 17 ^^^ rotateRight x 19 ^^^ (x >>> 10)
  s1 (ws.getD 1 0) + ws.getD 6 0 + s0 (ws.getD 14 0) + ws.getD 15 0

/-- The 64 words of a block. -/
def schedule (block : List UInt8) : List UInt32 :=
  ((List.range 48).foldl (fun ws _ => nextWord ws :: ws)
    ((pieces 4 16 block).map word).reverse).reverse

/-- A round, with its constant and its word. -/
def round (s : Words) (kw : UInt32 × UInt32) : Words :=
  let s1 := rotateRight s.e 6 ^^^ rotateRight s.e 11 ^^^ rotateRight s.e 25
  let choice := (s.e &&& s.f) ^^^ (~~~s.e &&& s.g)
  let t1 := s.h + s1 + choice + kw.1 + kw.2
  let s0 := rotateRight s.a 2 ^^^ rotateRight s.a 13 ^^^ rotateRight s.a 22
  let majority := (s.a &&& s.b) ^^^ (s.a &&& s.c) ^^^ (s.b &&& s.c)
  ⟨t1 + (s0 + majority), s.a, s.b, s.c, s.d + t1, s.e, s.f, s.g⟩

def Words.add (s t : Words) : Words :=
  ⟨s.a + t.a, s.b + t.b, s.c + t.c, s.d + t.d, s.e + t.e, s.f + t.f, s.g + t.g, s.h + t.h⟩

/-- The state after a block. -/
def compress (s : Words) (block : List UInt8) : Words :=
  s.add ((roundConstants.zip (schedule block)).foldl round s)

/-! ## The digest -/

def Words.bytes (s : Words) : List UInt8 :=
  [s.a, s.b, s.c, s.d, s.e, s.f, s.g, s.h].flatMap bytesOf

/-- SHA-256. -/
def sha256 (message : List UInt8) : List UInt8 :=
  ((pieces 64 ((pad message).length / 64) (pad message)).foldl compress initial).bytes

/-- A digest has 32 bytes, whatever the state. -/
theorem length_sha256 (message : List UInt8) : (sha256 message).length = 32 := rfl

-- The digest of "abc".
example : sha256 [97, 98, 99] = [186, 120, 22, 191, 143, 1, 207, 234, 65, 65, 64, 222, 93, 174, 34, 35,
    176, 3, 97, 163, 150, 23, 122, 156, 180, 16, 255, 97, 242, 0, 21, 173] := by decide +kernel

end SecureHash
