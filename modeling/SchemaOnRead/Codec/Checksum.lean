/-!
# Checksums

Cyclic redundancy checks with 32 and 64 bits, the 32-bit hash of LZ4 frames, and the 256-bit secure
hash.
-/

namespace SchemaOnRead.Checksum

/-! ## Cyclic redundancy checks, lowest bit first -/

/-- Divides the low eight bits of a remainder by a polynomial. -/
def reduceLow (polynomial : UInt64) : Nat → UInt64 → UInt64
  | 0, r => r
  | n + 1, r => reduceLow polynomial n (if r &&& 1 = 1 then (r >>> 1) ^^^ polynomial else r >>> 1)

/-- The remainders of all bytes. -/
def tableLow (polynomial : UInt64) : Array UInt64 :=
  (Array.range 256).map fun b => reduceLow polynomial 8 (Nat.toUInt64 b)

def table32 : Array UInt64 := tableLow 0xEDB88320

def table64 : Array UInt64 := tableLow 0xC96C5795D7870F42

/-- Carries a remainder over bytes. -/
def updateLow (table : Array UInt64) (r : UInt64) (bs : List UInt8) : UInt64 :=
  bs.foldl (fun r b => table.getD ((r ^^^ b.toUInt64) &&& 0xFF).toNat 0 ^^^ (r >>> 8)) r

/-- The 32-bit check of bytes. -/
def crc32 (bs : List UInt8) : Nat :=
  (updateLow table32 0xFFFFFFFF bs ^^^ 0xFFFFFFFF).toNat

/-- The 64-bit check of bytes. -/
def crc64 (bs : List UInt8) : Nat :=
  (updateLow table64 0xFFFFFFFFFFFFFFFF bs ^^^ 0xFFFFFFFFFFFFFFFF).toNat

/-! ## Cyclic redundancy check, highest bit first -/

/-- Divides a remainder of 32 bits by the polynomial. -/
def reduceHigh : Nat → UInt32 → UInt32
  | 0, r => r
  | n + 1, r =>
    reduceHigh n (if r &&& 0x80000000 = 0 then r <<< 1 else (r <<< 1) ^^^ 0x04C11DB7)

def tableHigh : Array UInt32 :=
  (Array.range 256).map fun b => reduceHigh 8 (Nat.toUInt32 b <<< 24)

/-- The 32-bit check of bytes with the highest bit first. -/
def crc32High (bs : List UInt8) : Nat :=
  let r := bs.foldl (fun (r : UInt32) b =>
    tableHigh.getD ((r >>> 24) ^^^ b.toUInt32).toNat 0 ^^^ (r <<< 8)) 0xFFFFFFFF
  (r ^^^ 0xFFFFFFFF).toNat

/-! ## The hash of LZ4 frames -/

def rotate (x : UInt32) (n : UInt32) : UInt32 := (x <<< n) ||| (x >>> (32 - n))

def prime1 : UInt32 := 2654435761
def prime2 : UInt32 := 2246822519
def prime3 : UInt32 := 3266489917
def prime4 : UInt32 := 668265263
def prime5 : UInt32 := 374761393

def word (a b c d : UInt8) : UInt32 :=
  a.toUInt32 ||| (b.toUInt32 <<< 8) ||| (c.toUInt32 <<< 16) ||| (d.toUInt32 <<< 24)

def lane (acc input : UInt32) : UInt32 := rotate (acc + input * prime2) 13 * prime1

/-- Takes in whole blocks of sixteen bytes; returns the four lanes and what is left. -/
def lanes : UInt32 → UInt32 → UInt32 → UInt32 → List UInt8 →
    UInt32 × UInt32 × UInt32 × UInt32 × List UInt8
  | p, q, r, s, a0 :: a1 :: a2 :: a3 :: b0 :: b1 :: b2 :: b3 :: c0 :: c1 :: c2 :: c3 ::
      d0 :: d1 :: d2 :: d3 :: rest =>
    lanes (lane p (word a0 a1 a2 a3)) (lane q (word b0 b1 b2 b3)) (lane r (word c0 c1 c2 c3))
      (lane s (word d0 d1 d2 d3)) rest
  | p, q, r, s, rest => (p, q, r, s, rest)

/-- Takes in what is left after the blocks, by words and then by bytes. -/
def tail : UInt32 → List UInt8 → UInt32
  | h, a :: b :: c :: d :: rest => tail (rotate (h + word a b c d * prime3) 17 * prime4) rest
  | h, a :: rest => tail (rotate (h + a.toUInt32 * prime5) 11 * prime1) rest
  | h, [] => h

def avalanche (h : UInt32) : UInt32 :=
  let h := (h ^^^ (h >>> 15)) * prime2
  let h := (h ^^^ (h >>> 13)) * prime3
  h ^^^ (h >>> 16)

/-- The 32-bit hash of bytes. -/
def xxh32 (bs : List UInt8) : Nat :=
  let length := bs.length
  let (h, rest) :=
    if length < 16 then (prime5, bs)
    else
      let (p, q, r, s, rest) := lanes (prime1 + prime2) prime2 0 (0 - prime1) bs
      (rotate p 1 + rotate q 7 + rotate r 12 + rotate s 18, rest)
  (avalanche (tail (h + length.toUInt32) rest)).toNat

/-! ## The secure hash of 256 bits -/

/-- The constants of the rounds. -/
def roundConstants : List UInt32 :=
  [
    0x428A2F98, 0x71374491, 0xB5C0FBCF, 0xE9B5DBA5, 0x3956C25B, 0x59F111F1, 0x923F82A4, 0xAB1C5ED5,
    0xD807AA98, 0x12835B01, 0x243185BE, 0x550C7DC3, 0x72BE5D74, 0x80DEB1FE, 0x9BDC06A7, 0xC19BF174,
    0xE49B69C1, 0xEFBE4786, 0x0FC19DC6, 0x240CA1CC, 0x2DE92C6F, 0x4A7484AA, 0x5CB0A9DC, 0x76F988DA,
    0x983E5152, 0xA831C66D, 0xB00327C8, 0xBF597FC7, 0xC6E00BF3, 0xD5A79147, 0x06CA6351, 0x14292967,
    0x27B70A85, 0x2E1B2138, 0x4D2C6DFC, 0x53380D13, 0x650A7354, 0x766A0ABB, 0x81C2C92E, 0x92722C85,
    0xA2BFE8A1, 0xA81A664B, 0xC24B8B70, 0xC76C51A3, 0xD192E819, 0xD6990624, 0xF40E3585, 0x106AA070,
    0x19A4C116, 0x1E376C08, 0x2748774C, 0x34B0BCB5, 0x391C0CB3, 0x4ED8AA4A, 0x5B9CCA4F, 0x682E6FF3,
    0x748F82EE, 0x78A5636F, 0x84C87814, 0x8CC70208, 0x90BEFFFA, 0xA4506CEB, 0xBEF9A3F7, 0xC67178F2]

/-- The eight words of the hash before any block. -/
def initialWords : List UInt32 :=
  [0x6A09E667, 0xBB67AE85, 0x3C6EF372, 0xA54FF53A, 0x510E527F, 0x9B05688C, 0x1F83D9AB, 0x5BE0CD19]

/-- The next word of the schedule from the sixteen words before it, the latest first. -/
def scheduled (w : List UInt32) : UInt32 :=
  let before (n : Nat) : UInt32 := w.getD (n - 1) 0
  let low := rotate (before 15) 25 ^^^ rotate (before 15) 14 ^^^ (before 15 >>> 3)
  let high := rotate (before 2) 15 ^^^ rotate (before 2) 13 ^^^ (before 2 >>> 10)
  before 16 + low + before 7 + high

/-- Extends a schedule by `n` words; the words stand latest first. -/
def extendSchedule : Nat → List UInt32 → List UInt32
  | 0, w => w
  | n + 1, w => extendSchedule n (scheduled w :: w)

/-- A round with a constant and a word of the schedule added up. -/
def hashRound (words : List UInt32) (k : UInt32) : List UInt32 :=
  match words with
  | [a, b, c, d, e, f, g, h] =>
    let high := rotate e 26 ^^^ rotate e 21 ^^^ rotate e 7
    let x := h + high + ((e &&& f) ^^^ (~~~e &&& g)) + k
    let low := rotate a 30 ^^^ rotate a 19 ^^^ rotate a 10
    [x + low + ((a &&& b) ^^^ (a &&& c) ^^^ (b &&& c)), a, b, c, d + x, e, f, g]
  | other => other

/-- Takes in a block of sixteen words. -/
def hashBlock (words block : List UInt32) : List UInt32 :=
  let schedule := (extendSchedule 48 block.reverse).reverse
  let mixed := (roundConstants.zipWith (· + ·) schedule).foldl hashRound words
  words.zipWith (· + ·) mixed

/-- Takes in bytes by blocks. `block` holds the words of the current block, latest first, and
`count` their number. -/
def hashBytes (words : List UInt32) (count : Nat) (block : List UInt32) :
    List UInt8 → List UInt32
  | a :: b :: c :: d :: rest =>
    if count = 15 then hashBytes (hashBlock words (word d c b a :: block).reverse) 0 [] rest
    else hashBytes words (count + 1) (word d c b a :: block) rest
  | _ => words

/-- The bytes after a message of a length: a set bit, zeros up to whole blocks, and the length in
bits. -/
def padding (length : Nat) : List UInt8 :=
  let lengthField := (List.range 8).reverse.map fun i => ((8 * length) >>> (8 * i)).toUInt8
  0x80 :: List.replicate ((119 - length % 64) % 64) 0 ++ lengthField

/-- The secure hash of bytes as a number. -/
def sha256 (bs : List UInt8) : Nat :=
  (hashBytes initialWords 0 [] (bs ++ padding bs.length)).foldl
    (fun n w => n * 4294967296 + w.toNat) 0

end SchemaOnRead.Checksum
