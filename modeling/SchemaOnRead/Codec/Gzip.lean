import SchemaOnRead.Codec.Checksum
import SchemaOnRead.Codec.Deflate
import SchemaOnRead.Numeric.Power

/-!
# Gzip

A gzip file is a sequence of members, each a compressed stream between a header and a trailer. The
trailer holds a check of the contents. Zero bytes may follow a member.
-/

namespace SchemaOnRead.Gzip

/-- Skips a text that ends with a zero byte. -/
def skipText (bs : List UInt8) : List UInt8 := (bs.dropWhile (· ≠ 0)).drop 1

/-- Drops the first `n` bytes. -/
def skip? (n : Nat) (bs : List UInt8) : Except Damage (List UInt8) :=
  match splitBytes? n bs with
  | some (_, rest) => .ok rest
  | none => .error .cutOff

/-- Reads the header of a member. -/
def header (bs : List UInt8) : Except Damage (List UInt8) :=
  match bs with
  | 0x1F :: 0x8B :: method :: flags :: rest => do
    if method ≠ 8 then throw .corrupt
    let has (bit : UInt8) : Bool := flags &&& bit ≠ 0
    let rest ← skip? 6 rest
    let rest ← if has 4 then
        match splitBytes? 2 rest with
        | some (length, rest) => skip? (littleEndian length) rest
        | none => throw .cutOff
      else pure rest
    let rest := if has 8 then skipText rest else rest
    let rest := if has 16 then skipText rest else rest
    if has 2 then skip? 2 rest else pure rest
  | [0x1F, 0x8B] => .error .cutOff
  | [0x1F, 0x8B, _] => .error .cutOff
  | _ => .error .corrupt

/-- Reads the trailer of a member, and the zero bytes after it. -/
def trailer (contents : List UInt8) (bs : List UInt8) : Except Damage (List UInt8) :=
  match splitBytes? 8 bs with
  | none => .error .cutOff
  | some (fields, rest) =>
    if littleEndian (fields.take 4) = Checksum.crc32 contents ∧
        littleEndian (fields.drop 4) = contents.length % twoTo 32 then
      .ok (rest.dropWhile (· = 0))
    else .error .corrupt

/-- Decodes members up to the end of the bytes; each member takes up bytes. -/
def members : Nat → Array UInt8 → List UInt8 → Decoded
  | 0, output, _ => ⟨output, .error .corrupt⟩
  | _, output, [] => ⟨output, .ok []⟩
  | fuel + 1, output, bs =>
    match header bs with
    | .error d => ⟨output, .error d⟩
    | .ok body =>
      let d := Deflate.decode output body
      match d.rest with
      | .error _ => d
      | .ok rest =>
        match trailer (d.output.extract output.size d.output.size).toList rest with
        | .error damage => ⟨d.output, .error damage⟩
        | .ok rest => members fuel d.output rest

/-- Decodes a file. -/
def decode (bs : List UInt8) : Decoded := members (bs.length + 1) #[] bs

end SchemaOnRead.Gzip
