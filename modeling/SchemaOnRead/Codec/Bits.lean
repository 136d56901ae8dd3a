import SchemaOnRead.Numeric.Power

/-!
# Bits of a byte sequence

Reading bytes as bits. `takeLow` takes the bits of each byte from the least significant one on, and
the first bit taken is the lowest of the number; `takeHigh` takes them from the most significant
one on, and the first bit taken is the highest. Both fail at the end of the bytes.
-/

namespace SchemaOnRead

/-- Bytes that are read bit by bit. The low `count` bits of `held` have been taken from the bytes
and not been read yet. -/
structure Bits where
  rest : List UInt8
  held : Nat := 0
  count : Nat := 0

namespace Bits

/-- Holds at least `n` bits, the later bytes above the earlier ones. -/
def fillLow (n held count : Nat) : List UInt8 → Option Bits
  | [] => if n ≤ count then some ⟨[], held, count⟩ else none
  | b :: rest =>
    if n ≤ count then some ⟨b :: rest, held, count⟩
    else fillLow n (held + b.toNat <<< count) (count + 8) rest

/-- Holds at least `n` bits, the later bytes below the earlier ones. -/
def fillHigh (n held count : Nat) : List UInt8 → Option Bits
  | [] => if n ≤ count then some ⟨[], held, count⟩ else none
  | b :: rest =>
    if n ≤ count then some ⟨b :: rest, held, count⟩
    else fillHigh n (held <<< 8 + b.toNat) (count + 8) rest

/-- The next `n` bits, the first of them the lowest. -/
def takeLow (n : Nat) (b : Bits) : Option (Nat × Bits) :=
  (fillLow n b.held b.count b.rest).map fun b =>
    (b.held % twoTo n, { b with held := b.held >>> n, count := b.count - n })

/-- The next `n` bits, the first of them the highest. -/
def takeHigh (n : Nat) (b : Bits) : Option (Nat × Bits) :=
  (fillHigh n b.held b.count b.rest).map fun b =>
    (b.held >>> (b.count - n), { b with held := b.held % twoTo (b.count - n), count := b.count - n })

/-- The bytes from the next whole byte on, when fewer than eight bits are held. -/
def bytes (b : Bits) : List UInt8 := b.rest

/-- Skips to the next whole byte. -/
def align (b : Bits) : Bits := ⟨b.rest, 0, 0⟩

/-- A bound on the number of bits left. -/
def size (b : Bits) : Nat := 8 * b.rest.length + b.count

end Bits

/-- The number that bytes denote, least significant byte first. -/
def littleEndian : List UInt8 → Nat
  | [] => 0
  | b :: rest => b.toNat + 256 * littleEndian rest

/-- The number that bytes denote, most significant byte first. -/
def bigEndian (bs : List UInt8) : Nat := bs.foldl (fun n b => 256 * n + b.toNat) 0

/-- The first `n` bytes and the rest, if there are as many. -/
def splitBytes? (n : Nat) (bs : List UInt8) : Option (List UInt8 × List UInt8) :=
  let head := bs.take n
  if head.length = n then some (head, bs.drop n) else none

end SchemaOnRead
