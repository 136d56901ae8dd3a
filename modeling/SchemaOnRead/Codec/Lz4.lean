import SchemaOnRead.Codec.Bits
import SchemaOnRead.Codec.Checksum
import SchemaOnRead.Codec.Damage

/-!
# LZ4 frames

A frame is a header, blocks, and perhaps a check of the contents. A block is made of literal bytes
and of copies of earlier output. Frames that are to be skipped may stand between others.
-/

namespace SchemaOnRead.Lz4

/-! ## Blocks -/

/-- The further bytes of a length: as long as a byte is 255, another one follows. -/
def lengthRest : Nat → List UInt8 → Option (Nat × List UInt8)
  | _, [] => none
  | n, b :: rest => if b = 255 then lengthRest (n + 255) rest else some (n + b.toNat, rest)

/-- A length that begins with four bits. -/
def length (n : Nat) (bs : List UInt8) : Option (Nat × List UInt8) :=
  if n = 15 then lengthRest 15 bs else some (n, bs)

/-- Decodes a block onto an output; copies reach back to `start` at the earliest. -/
def block (start : Nat) : Nat → Array UInt8 → List UInt8 → Option (Array UInt8)
  | 0, _, _ => none
  | _, _, [] => none
  | fuel + 1, out, token :: bs => do
    let (literals, bs) ← length (token.toNat / 16) bs
    let (bytes, bs) ← splitBytes? literals bs
    let out := pushBytes out bytes
    match bs with
    | [] => return out
    | low :: high :: bs =>
      let distance := low.toNat + 256 * high.toNat
      if distance = 0 ∨ out.size - start < distance then none
      let (count, bs) ← length (token.toNat % 16) bs
      block start fuel (copyBack distance (count + 4) out) bs
    | _ => none

/-! ## Frames -/

/-- What the header of a frame says. -/
structure Header where
  independent : Bool
  blockChecks : Bool
  contentCheck : Bool
  maxBlock : Nat
  size : Option Nat

/-- The signature of a frame. -/
def signature : Nat := 0x184D2204

/-- The first of sixteen signatures of frames to be skipped. -/
def skipSignature : Nat := 0x184D2A50

/-- The first bytes as a number, with the rest. -/
def number (n : Nat) (bs : List UInt8) : Except Damage (Nat × List UInt8) :=
  match splitBytes? n bs with
  | some (head, rest) => .ok (littleEndian head, rest)
  | none => .error .cutOff

/-- Reads the header of a frame after the signature. -/
def header (bs : List UInt8) : Except Damage (Header × List UInt8) := do
  let (flags, rest) ← number 1 bs
  let has (bit : Nat) : Bool := flags / twoTo bit % 2 = 1
  let (sizes, rest) ← number 1 rest
  if flags / 64 ≠ 1 ∨ has 1 ∨ sizes / 128 ≠ 0 ∨ sizes % 16 ≠ 0 ∨ sizes / 16 < 4 then
    throw .corrupt
  let (size, rest) ← if has 3 then (number 8 rest).map fun (n, rest) => (some n, rest)
    else pure (none, rest)
  let rest ← if has 0 then (number 4 rest).map (·.2) else pure rest
  let described := bs.take (bs.length - rest.length)
  let (check, rest) ← number 1 rest
  if check ≠ Checksum.xxh32 described / 256 % 256 then throw .corrupt
  return (⟨has 5, has 4, has 2, twoTo (8 + 2 * (sizes / 16)), size⟩, rest)

/-- The bytes of an output from a place on. -/
def since (start : Nat) (out : Array UInt8) : List UInt8 := (out.extract start out.size).toList

/-- Decodes the blocks of a frame whose contents begin at `start`. -/
def blocks (h : Header) (start : Nat) : Nat → Array UInt8 → List UInt8 → Decoded
  | 0, out, _ => ⟨out, .error .corrupt⟩
  | fuel + 1, out, bs =>
    match number 4 bs with
    | .error d => ⟨out, .error d⟩
    | .ok (0, rest) =>
      if h.size.any (· ≠ out.size - start) then ⟨out, .error .corrupt⟩
      else if h.contentCheck then
        match number 4 rest with
        | .error d => ⟨out, .error d⟩
        | .ok (check, rest) =>
          if check = Checksum.xxh32 (since start out) then ⟨out, .ok rest⟩
          else ⟨out, .error .corrupt⟩
      else ⟨out, .ok rest⟩
    | .ok (field, rest) =>
      let size := field % twoTo 31
      if h.maxBlock < size then ⟨out, .error .corrupt⟩
      else match splitBytes? size rest with
        | none => ⟨out, .error .cutOff⟩
        | some (data, rest) =>
          let checked := if h.blockChecks then number 4 rest else .ok (Checksum.xxh32 data, rest)
          match checked with
          | .error d => ⟨out, .error d⟩
          | .ok (check, rest) =>
            if check ≠ Checksum.xxh32 data then ⟨out, .error .corrupt⟩
            else if field / twoTo 31 = 1 then blocks h start fuel (pushBytes out data) rest
            else
              let reach := if h.independent then out.size else start
              match block reach (data.length + 1) out data with
              | none => ⟨out, .error .corrupt⟩
              | some next =>
                if h.maxBlock < next.size - out.size then ⟨out, .error .corrupt⟩
                else blocks h start fuel next rest

/-- Decodes a frame. -/
def frame (out : Array UInt8) (bs : List UInt8) : Decoded :=
  match number 4 bs with
  | .error d => ⟨out, .error d⟩
  | .ok (mark, rest) =>
    if mark = signature then
      match header rest with
      | .error d => ⟨out, .error d⟩
      | .ok (h, rest) => blocks h out.size (rest.length + 1) out rest
    else if mark / 16 = skipSignature / 16 then
      match number 4 rest with
      | .error d => ⟨out, .error d⟩
      | .ok (n, rest) =>
        match splitBytes? n rest with
        | none => ⟨out, .error .cutOff⟩
        | some (_, rest) => ⟨out, .ok rest⟩
    else ⟨out, .error .corrupt⟩

/-- Decodes frames up to the end of the bytes. -/
def frames : Nat → Array UInt8 → List UInt8 → Decoded
  | 0, out, _ => ⟨out, .error .corrupt⟩
  | fuel + 1, out, bs =>
    let d := frame out bs
    match d.rest with
    | .error _ => d
    | .ok [] => d
    | .ok rest => frames fuel d.output rest

/-- Decodes a file, which holds one frame at least. -/
def decode (bs : List UInt8) : Decoded := frames (bs.length + 1) #[] bs

end SchemaOnRead.Lz4
