import SchemaOnRead.Codec.Damage
import SchemaOnRead.Codec.Huffman

/-!
# Deflate

The compressed format of gzip members: blocks of literal bytes and of copies of earlier output, in
fixed or declared prefix codes.
-/

namespace SchemaOnRead.Deflate

open DecoderM

/-- The bits to read, and the output; the copies of a stream start at `start` at the earliest. -/
structure State where
  bits : Bits
  output : Array UInt8
  start : Nat

abbrev M := DecoderM State

/-- Takes the next `n` bits. -/
def take (n : Nat) : M Nat := do
  let s ← get
  match s.bits.takeLow n with
  | none => stop .cutOff
  | some (x, bits) =>
    set { s with bits }
    return x

/-- Reads a symbol. -/
def symbol (c : PrefixCode) : M Nat := do
  let s ← get
  match c.readLow s.bits with
  | none => stop .cutOff
  | some (none, _) => stop .corrupt
  | some (some x, bits) =>
    set { s with bits }
    return x

/-- Runs a step until it yields a result, at most `fuel` times. -/
def repeatUntil {α β : Type} (step : α → M (α ⊕ β)) : Nat → α → M β
  | 0, _ => stop .corrupt
  | fuel + 1, a => do
    match ← step a with
    | .inl a => repeatUntil step fuel a
    | .inr b => return b

/-- The base and the number of extra bits of the lengths of copies, by symbol from 257 on. -/
def lengthCodes : List (Nat × Nat) :=
  [(3, 0), (4, 0), (5, 0), (6, 0), (7, 0), (8, 0), (9, 0), (10, 0), (11, 1), (13, 1), (15, 1),
    (17, 1), (19, 2), (23, 2), (27, 2), (31, 2), (35, 3), (43, 3), (51, 3), (59, 3), (67, 4),
    (83, 4), (99, 4), (115, 4), (131, 5), (163, 5), (195, 5), (227, 5), (258, 0)]

/-- The base and the number of extra bits of the distances of copies, by symbol. -/
def distanceCodes : List (Nat × Nat) :=
  [(1, 0), (2, 0), (3, 0), (4, 0), (5, 1), (7, 1), (9, 2), (13, 2), (17, 3), (25, 3), (33, 4),
    (49, 4), (65, 5), (97, 5), (129, 6), (193, 6), (257, 7), (385, 7), (513, 8), (769, 8),
    (1025, 9), (1537, 9), (2049, 10), (3073, 10), (4097, 11), (6145, 11), (8193, 12), (12289, 12),
    (16385, 13), (24577, 13)]

/-- Reads the number that a symbol of a table stands for. -/
def extended (table : List (Nat × Nat)) (i : Nat) : M Nat := do
  let (base, extra) ← orStop .corrupt table[i]?
  return base + (← take extra)

/-- One literal, one copy, or the end of a block. -/
def blockStep (literals distances : PrefixCode) (_ : Unit) : M (Unit ⊕ Unit) := do
  let x ← symbol literals
  if x < 256 then
    modify fun s => { s with output := s.output.push x.toUInt8 }
    return .inl ()
  else if x = 256 then return .inr ()
  else
    let length ← extended lengthCodes (x - 257)
    let distance ← extended distanceCodes (← symbol distances)
    let s ← get
    check (distance ≤ s.output.size - s.start)
    modify fun s => { s with output := copyBack distance length s.output }
    return .inl ()

/-- The contents of a compressed block. -/
def block (literals distances : PrefixCode) : M Unit := do
  repeatUntil (blockStep literals distances) ((← get).bits.size + 1) ()

/-- The code of literals and lengths of a block with fixed codes. -/
def fixedLiterals : PrefixCode :=
  .ofLengths (List.replicate 144 8 ++ List.replicate 112 9 ++ List.replicate 24 7 ++
    List.replicate 8 8)

/-- The code of distances of a block with fixed codes. -/
def fixedDistances : PrefixCode := .ofLengths (List.replicate 32 5)

/-- The order in which the lengths of the code of code lengths are declared. -/
def lengthOrder : List Nat := [16, 17, 18, 0, 8, 7, 9, 6, 10, 5, 11, 4, 12, 3, 13, 2, 14, 1, 15]

/-- Reads `n` numbers of a fixed size. -/
def takeMany (bits : Nat) : Nat → M (List Nat)
  | 0 => return []
  | n + 1 => do
    let x ← take bits
    return x :: (← takeMany bits n)

/-- Reads code lengths, some of them repeated, until there are `total`; `found` holds them, last
first. -/
def lengthStep (code : PrefixCode) (total : Nat) (found : List Nat) :
    M (List Nat ⊕ List Nat) := do
  if total ≤ found.length then return .inr found.reverse
  let x ← symbol code
  if x < 16 then return .inl (x :: found)
  let (value, count) ← match x with
    | 16 => do
      let value ← orStop .corrupt found.head?
      pure (value, 3 + (← take 2))
    | 17 => do pure (0, 3 + (← take 3))
    | _ => do pure (0, 11 + (← take 7))
  check (found.length + count ≤ total)
  return .inl (List.replicate count value ++ found)

/-- Whether the lengths of code words make a usable code: one without gaps, or for the codes of a
block, one with a single word of one bit, or none. -/
def isUsable (mayLack : Bool) (c : PrefixCode) : Bool :=
  c.slack == 0 || (mayLack && 0 < c.slack && c.counts.foldl (· + ·) 0 = c.counts.headD 0)

/-- Reads the codes declared at the start of a block. -/
def declaredCodes : M (PrefixCode × PrefixCode) := do
  let literalCount := (← take 5) + 257
  let distanceCount := (← take 5) + 1
  let lengthCount := (← take 4) + 4
  check (literalCount ≤ 286 && distanceCount ≤ 30)
  let given ← takeMany 3 lengthCount
  let places := lengthOrder.zip given
  let code := PrefixCode.ofLengths ((List.range 19).map fun i => (places.lookup i).getD 0)
  check (isUsable false code)
  let total := literalCount + distanceCount
  let lengths ← repeatUntil (lengthStep code total) (total + 1) []
  check (lengths.getD 256 0 ≠ 0)
  let literals := PrefixCode.ofLengths (lengths.take literalCount)
  let distances := PrefixCode.ofLengths (lengths.drop literalCount)
  check (isUsable true literals && isUsable true distances)
  return (literals, distances)

/-- A block that is stored as it is. -/
def storedBlock : M Unit := do
  modify fun s => { s with bits := s.bits.align }
  let length ← take 16
  let complement ← take 16
  check (length + complement = 0xFFFF)
  let s ← get
  let bytes := s.bits.rest.take length
  set { s with
    bits := { s.bits with rest := s.bits.rest.drop length }, output := pushBytes s.output bytes }
  if bytes.length < length then stop .cutOff

/-- A block with its header; ends after the last one. -/
def step (_ : Unit) : M (Unit ⊕ Unit) := do
  let last ← take 1
  match ← take 2 with
  | 0 => storedBlock
  | 1 => block fixedLiterals fixedDistances
  | 2 => do
    let (literals, distances) ← declaredCodes
    block literals distances
  | _ => stop .corrupt
  return if last = 1 then .inr () else .inl ()

/-- Decodes the stream at the start of bytes, and appends its contents to an output. -/
def decode (output : Array UInt8) (bytes : List UInt8) : Decoded :=
  let bits : Bits := { rest := bytes }
  match (repeatUntil step (bits.size + 1) ()).finish { bits, output, start := output.size } with
  | (.ok _, s) => ⟨s.output, .ok s.bits.bytes⟩
  | (.error d, s) => ⟨s.output, .error d⟩

end SchemaOnRead.Deflate
