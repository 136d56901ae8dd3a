import SchemaOnRead.Codec.Bits
import SchemaOnRead.Codec.Checksum
import SchemaOnRead.Codec.Lzma

/-!
# Xz

An xz stream is a header, blocks of compressed data, an index of the blocks and a footer, each with
its own check.
-/

namespace SchemaOnRead.Xz

/-! ## Numbers -/

/-- A number of seven bits a byte, the lowest first; the last byte has its highest bit clear and is
not a superfluous zero. -/
def sevenBit : Nat → Nat → List UInt8 → Except Damage (Nat × List UInt8)
  | 9, _, _ => .error .corrupt
  | _, _, [] => .error .cutOff
  | i, n, b :: rest =>
    if b < 128 then
      if b = 0 ∧ i ≠ 0 then .error .corrupt else .ok (n + b.toNat * twoTo (7 * i), rest)
    else sevenBit (i + 1) (n + (b.toNat - 128) * twoTo (7 * i)) rest

/-- The first `n` bytes with the rest. -/
def bytes (n : Nat) (bs : List UInt8) : Except Damage (List UInt8 × List UInt8) :=
  match splitBytes? n bs with
  | some found => .ok found
  | none => .error .cutOff

/-- Fails for corruption unless a condition holds. -/
def check (ok : Bool) : Except Damage Unit := if ok then .ok () else .error .corrupt

/-! ## Streams -/

/-- The kinds of checks of the contents of blocks. -/
inductive CheckKind where
  | none
  | crc32
  | crc64
  | sha256
  | unverified (size : Nat)
  deriving DecidableEq, Repr

/-- The kind with a number; each number has its size. -/
def CheckKind.ofNat? (n : Nat) : Option CheckKind :=
  match n with
  | 0 => some .none
  | 1 => some .crc32
  | 4 => some .crc64
  | 10 => some .sha256
  | n => ([4, 4, 4, 4, 8, 8, 8, 16, 16, 16, 32, 32, 32, 64, 64, 64] : List Nat)[n]?.map .unverified

def CheckKind.size : CheckKind → Nat
  | none => 0
  | crc32 => 4
  | crc64 => 8
  | sha256 => 32
  | unverified n => n

/-- Whether a check holds of contents. -/
def CheckKind.holds (k : CheckKind) (field contents : List UInt8) : Bool :=
  match k with
  | none | unverified _ => true
  | crc32 => littleEndian field = Checksum.crc32 contents
  | crc64 => littleEndian field = Checksum.crc64 contents
  | sha256 => bigEndian field = Checksum.sha256 contents

def signature : List UInt8 := [0xFD, 0x37, 0x7A, 0x58, 0x5A, 0x00]

/-- Reads the header of a stream: the flags, and the kind of its checks. -/
def streamHeader (bs : List UInt8) :
    Except Damage (List UInt8 × CheckKind × List UInt8) := do
  let (mark, rest) ← bytes 6 bs
  let (flags, rest) ← bytes 2 rest
  let (sum, rest) ← bytes 4 rest
  check (mark == signature && littleEndian sum = Checksum.crc32 flags)
  match flags with
  | [0, kind] =>
    match if kind < 16 then CheckKind.ofNat? kind.toNat else Option.none with
    | some kind => return (flags, kind, rest)
    | Option.none => throw .corrupt
  | _ => throw .corrupt

/-- What the header of a block declares: the sizes of its data before and after compression. -/
structure BlockHeader where
  packed : Option Nat
  size : Option Nat

/-- The filters of a block: one that reads chunks. -/
def filter (bs : List UInt8) : Except Damage (List UInt8) := do
  let (id, rest) ← sevenBit 0 0 bs
  let (length, rest) ← sevenBit 0 0 rest
  let (properties, rest) ← bytes length rest
  check (id = 0x21 && length = 1 && properties.all (· ≤ 40))
  return rest

/-- Reads the fields of a block's header after its first byte. -/
def blockFields (bs : List UInt8) : Except Damage BlockHeader := do
  let (flags, rest) ← bytes 1 bs
  let flags := littleEndian flags
  check (flags % 64 = 0)
  let optional (bit : Nat) (bs : List UInt8) : Except Damage (Option Nat × List UInt8) :=
    if flags / bit % 2 = 1 then (sevenBit 0 0 bs).map fun (n, rest) => (some n, rest)
    else .ok (none, bs)
  let (packed, rest) ← optional 64 rest
  let (size, rest) ← optional 128 rest
  let padding ← filter rest
  check (padding.all (· = 0))
  return ⟨packed, size⟩

/-- A record of the index: the size of a block without its padding, and of its contents. -/
abbrev Record := Nat × Nat

/-- Decodes a block, whose first byte tells the length of its header. -/
def block (kind : CheckKind) (output : Array UInt8) (first : UInt8) (bs : List UInt8) :
    Array UInt8 × Except Damage (Record × List UInt8) :=
  let length := 4 * (first.toNat + 1)
  let header : Except Damage (BlockHeader × List UInt8) := do
    let (fields, rest) ← bytes (length - 5) bs
    let (sum, rest) ← bytes 4 rest
    check (littleEndian sum = Checksum.crc32 (first :: fields))
    -- a header that ends within its fields is damaged, not cut off
    match blockFields fields with
    | .ok h => return (h, rest)
    | .error _ => throw .corrupt
  match header with
  | .error d => (output, .error d)
  | .ok (h, body) =>
    let d := Lzma.decode2 output body
    (d.output, do
      let rest ← d.rest
      let packed := body.length - rest.length
      let contents := (d.output.extract output.size d.output.size).toList
      check (h.packed.all (· = packed) && h.size.all (· = contents.length))
      let (padding, rest) ← bytes ((4 - packed % 4) % 4) rest
      check (padding.all (· = 0))
      let (field, rest) ← bytes kind.size rest
      check (kind.holds field contents)
      return ((length + packed + kind.size, contents.length), rest))

/-- Reads records of the index, which must be those of the blocks. -/
def records : List Record → List UInt8 → Except Damage (List UInt8)
  | [], bs => .ok bs
  | r :: rs, bs => do
    let (packed, bs) ← sevenBit 0 0 bs
    let (size, bs) ← sevenBit 0 0 bs
    check ((packed, size) == r)
    records rs bs

/-- Reads the index after its first byte, and the footer. -/
def index (flags : List UInt8) (blocks : List Record) (bs : List UInt8) :
    Except Damage (List UInt8) := do
  let (count, rest) ← sevenBit 0 0 bs
  check (count = blocks.length)
  let rest ← records blocks rest
  let length := 1 + (bs.length - rest.length)
  let (padding, rest) ← bytes ((4 - length % 4) % 4) rest
  check (padding.all (· = 0))
  let body := bs.take (bs.length - rest.length)
  let (sum, rest) ← bytes 4 rest
  check (littleEndian sum = Checksum.crc32 (0 :: body))
  let (sum, rest) ← bytes 4 rest
  let (size, rest) ← bytes 4 rest
  let (again, rest) ← bytes 2 rest
  let (mark, rest) ← bytes 2 rest
  check (littleEndian sum = Checksum.crc32 (size ++ again) && again == flags && mark == [0x59, 0x5A])
  check (4 * (littleEndian size + 1) = body.length + 5)
  return rest

/-- Decodes the blocks of a stream and what follows them. -/
def blocks (flags : List UInt8) (kind : CheckKind) : Nat → List Record → Array UInt8 →
    List UInt8 → Decoded
  | 0, _, output, _ => ⟨output, .error .corrupt⟩
  | _, _, output, [] => ⟨output, .error .cutOff⟩
  | fuel + 1, found, output, first :: bs =>
    if first = 0 then ⟨output, index flags found.reverse bs⟩
    else
      let (output, result) := block kind output first bs
      match result with
      | .error d => ⟨output, .error d⟩
      | .ok (r, rest) => blocks flags kind fuel (r :: found) output rest

/-- Decodes the stream at the start of bytes, and appends its contents to an output. A stream that
begins with another byte than the signature does is one run of symbols with a short header. -/
def stream (output : Array UInt8) (bs : List UInt8) : Decoded :=
  if bs.head? = signature.head? then
    match streamHeader bs with
    | .error d => ⟨output, .error d⟩
    | .ok (flags, kind, rest) => blocks flags kind (bs.length + 1) [] output rest
  else Lzma.decodeAlone output bs

/-- Decodes a file. -/
def decode (bs : List UInt8) : Decoded := decodeStreams stream bs

end SchemaOnRead.Xz
