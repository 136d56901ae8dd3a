import SchemaOnRead.Codec.Checksum
import SchemaOnRead.Codec.Damage
import SchemaOnRead.Codec.Huffman
import SchemaOnRead.Numeric.Power

/-!
# Bzip2

A bzip2 stream is a sequence of blocks. A block holds its bytes with long runs shortened, permuted
by the Burrows-Wheeler transform, moved to the front, and written in several prefix codes that take
turns.
-/

namespace SchemaOnRead.Bzip2

open DecoderM

/-- The bits to read, the output, and the check of the blocks so far. -/
structure State where
  bits : Bits
  output : Array UInt8
  check : Nat := 0

abbrev M := DecoderM State

/-- Takes the next `n` bits. -/
def take (n : Nat) : M Nat := do
  let s ← get
  match s.bits.takeHigh n with
  | none => stop .cutOff
  | some (x, bits) =>
    set { s with bits }
    return x

/-- Reads a symbol. -/
def symbol (c : PrefixCode) : M Nat := do
  let s ← get
  match c.readHigh s.bits with
  | none => stop .cutOff
  | some (none, _) => stop .corrupt
  | some (some x, bits) =>
    set { s with bits }
    return x

/-- Reads `n` things one after another. -/
def readMany {α : Type} (read : M α) : Nat → List α → M (List α)
  | 0, found => return found.reverse
  | n + 1, found => do readMany read n ((← read) :: found)

/-- Counts the one bits before the next zero bit, of which there may be `limit - 1`. -/
def unary : Nat → Nat → M Nat
  | 0, _ => stop .corrupt
  | limit + 1, n => do if (← take 1) = 0 then return n else unary limit (n + 1)

/-! ## Parts of a block -/

/-- The bytes that occur in a block, by a map of sixteen maps. -/
def usedBytes : M (List UInt8) := do
  let groups ← take 16
  let has (mask i : Nat) : Bool := mask >>> (15 - i) % 2 = 1
  let rows ← (List.range 16).mapM fun i => do
    if has groups i then
      let row ← take 16
      return ((List.range 16).filter (has row)).map fun j => (16 * i + j).toUInt8
    else return []
  return rows.flatten

/-- Moves the item at a place to the front. -/
def moveToFront {α : Type} (items : List α) (i : Nat) : Option (α × List α) :=
  items[i]?.map fun a => (a, a :: items.eraseIdx i)

/-- The items at some places, each moved to the front once it is taken. -/
def unmove {α : Type} : List α → List Nat → Option (List α)
  | _, [] => some []
  | items, i :: rest => do
    let (a, items) ← moveToFront items i
    return a :: (← unmove items rest)

/-- Changes the length of a code word by steps of one until it is right. -/
def adjustLength : Nat → Nat → M Nat
  | 0, _ => stop .corrupt
  | fuel + 1, length => do
    DecoderM.check (1 ≤ length && length ≤ 20)
    if (← take 1) = 0 then return length
    adjustLength fuel (if (← take 1) = 0 then length + 1 else length - 1)

/-- The lengths of code words, each given as a difference to the one before. -/
def codeLengths : Nat → Nat → List Nat → M (List Nat)
  | 0, _, found => return found.reverse
  | n + 1, length, found => do
    let length ← adjustLength ((← get).bits.size + 1) length
    codeLengths n length (length :: found)

/-- A prefix code for `n` symbols. -/
def readCode (n : Nat) : M PrefixCode := do
  return .ofLengths (← codeLengths n (← take 5) [])

/-! ## Symbols of a block -/

/-- The symbols of a group of fifty. -/
def groupSize : Nat := 50

/-- The state of reading the symbols of a block: the bytes ordered by their last use, the length of
the pending run with the weight of its next digit, and the bytes so far. -/
structure Moved where
  front : List UInt8
  run : Nat := 0
  weight : Nat := 1
  bytes : Array UInt8 := #[]

/-- Writes the pending run of the byte at the front. -/
def Moved.flush (m : Moved) (limit : Nat) : Option Moved :=
  if m.weight = 1 then some m
  else if limit < m.bytes.size + m.run then none
  else some { m with
    run := 0, weight := 1
    bytes := m.bytes ++ Array.replicate m.run (m.front.headD 0) }

/-- Takes in a symbol: a digit of a run, or the place of a byte. -/
def Moved.add (m : Moved) (limit x : Nat) : Option Moved :=
  if x ≤ 1 then
    if 2 * 1024 * 1024 ≤ m.weight then none
    else some { m with run := m.run + m.weight * (x + 1), weight := 2 * m.weight }
  else do
    let m ← m.flush limit
    if limit ≤ m.bytes.size then none
    let (b, front) ← moveToFront m.front (x - 1)
    return { m with front, bytes := m.bytes.push b }

/-- Reads symbols of one code until the group or the block ends. -/
def readGroup (code : PrefixCode) (limit last : Nat) : Nat → Moved → M (Moved × Bool)
  | 0, m => return (m, false)
  | n + 1, m => do
    let x ← symbol code
    if x = last then return (m, true)
    readGroup code limit last n (← orStop .corrupt (m.add limit x))

/-- Reads groups of symbols, each in the code that the next selector names. -/
def readGroups (codes : Array PrefixCode) (limit last : Nat) : List Nat → Moved → M Moved
  | [], _ => stop .corrupt
  | i :: selectors, m => do
    let code ← orStop .corrupt codes[i]?
    let (m, ended) ← readGroup code limit last groupSize m
    if ended then orStop .corrupt (m.flush limit)
    else readGroups codes limit last selectors m

/-! ## Inverse transforms -/

/-- The place of each byte of the sorted order in the transformed one. -/
def places (bytes : Array UInt8) : Array Nat :=
  let counts := bytes.foldl (fun (a : Array Nat) b => a.modify b.toNat (· + 1))
    (Array.replicate 256 0)
  let (starts, _) := counts.foldl (fun (acc : Array Nat × Nat) n => (acc.1.push acc.2, acc.2 + n))
    (#[], 0)
  let step (acc : Array Nat × Array Nat × Nat) (b : UInt8) : Array Nat × Array Nat × Nat :=
    let (next, starts, i) := acc
    let p := starts.getD b.toNat 0
    (next.set! p i, starts.set! b.toNat (p + 1), i + 1)
  (bytes.foldl step (Array.replicate bytes.size 0, starts, 0)).1

/-- Follows the places from one of them. -/
def follow (bytes : Array UInt8) (next : Array Nat) : Nat → Nat → Array UInt8 → Array UInt8
  | 0, _, out => out
  | n + 1, i, out =>
    let j := next.getD i 0
    follow bytes next n j (out.push (bytes.getD j 0))

/-- The bytes whose rotations, sorted, end in the given ones; `origin` is the place of the bytes
themselves among the rotations. -/
def untransform (bytes : Array UInt8) (origin : Nat) : Array UInt8 :=
  follow bytes (places bytes) bytes.size origin #[]

/-- Writes out runs: four equal bytes are followed by the number of further ones. `last` is the last
byte and `count` how often it has come in a row. -/
def expandRuns : Option UInt8 → Nat → List UInt8 → Array UInt8 → Array UInt8
  | _, _, [], out => out
  | last, count, b :: rest, out =>
    if count = 4 then
      expandRuns none 0 rest (out ++ Array.replicate b.toNat (last.getD 0))
    else if last = some b then expandRuns last (count + 1) rest (out.push b)
    else expandRuns (some b) 1 rest (out.push b)

/-! ## Streams -/

/-- A block after its signature. -/
def block (level : Nat) : M Unit := do
  let expected ← take 32
  DecoderM.check ((← take 1) = 0)
  let origin ← take 24
  DecoderM.check (origin ≤ 10 + 100000 * level)
  let used ← usedBytes
  DecoderM.check (!used.isEmpty)
  let codeCount ← take 3
  DecoderM.check (2 ≤ codeCount && codeCount ≤ 6)
  let selectorCount ← take 15
  DecoderM.check (1 ≤ selectorCount)
  let moved ← readMany (unary codeCount 0) selectorCount []
  let selectors ← orStop .corrupt (unmove (List.range codeCount) moved)
  let codes ← readMany (readCode (used.length + 2)) codeCount []
  let m ← readGroups codes.toArray (100000 * level) (used.length + 1) selectors { front := used }
  DecoderM.check (origin < m.bytes.size)
  let contents := expandRuns none 0 (untransform m.bytes origin).toList #[]
  modify fun s => { s with output := s.output ++ contents }
  let check := Checksum.crc32High contents.toList
  DecoderM.check (check = expected)
  modify fun s =>
    { s with check := Nat.xor (s.check * 2 % twoTo 32 + s.check / twoTo 31) check }

/-- The signature of a block. -/
def blockSignature : Nat := 0x314159265359

/-- The signature at the end of a stream. -/
def endSignature : Nat := 0x177245385090

/-- Blocks up to the end of a stream. -/
def blocks (level : Nat) : Nat → M Unit
  | 0 => stop .corrupt
  | fuel + 1 => do
    let signature ← take 48
    if signature = blockSignature then
      block level
      blocks level fuel
    else if signature = endSignature then
      let expected ← take 32
      DecoderM.check (expected = (← get).check)
    else stop .corrupt

/-- The size of the blocks of a stream in hundreds of thousands of bytes, by its header. -/
def header : List UInt8 → Except Damage (Nat × List UInt8)
  | 0x42 :: 0x5A :: 0x68 :: level :: rest =>
    if 0x31 ≤ level ∧ level ≤ 0x39 then .ok (level.toNat - 0x30, rest) else .error .corrupt
  | [0x42, 0x5A, 0x68] => .error .cutOff
  | [0x42, 0x5A] => .error .cutOff
  | [0x42] => .error .cutOff
  | [] => .error .cutOff
  | _ => .error .corrupt

/-- Decodes the stream at the start of bytes, and appends its contents to an output. -/
def stream (output : Array UInt8) (bs : List UInt8) : Decoded :=
  match header bs with
  | .error d => ⟨output, .error d⟩
  | .ok (level, rest) =>
    match (blocks level (bs.length + 1)).finish { bits := { rest }, output } with
    | (.ok (), s) => ⟨s.output, .ok s.bits.bytes⟩
    | (.error d, s) => ⟨s.output, .error d⟩

/-- Decodes a file. -/
def decode (bs : List UInt8) : Decoded := decodeStreams stream bs

end SchemaOnRead.Bzip2
