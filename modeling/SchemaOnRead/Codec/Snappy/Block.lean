import SchemaOnRead.Codec.Bits
import SchemaOnRead.Codec.Damage

/-!
# Snappy blocks

A block begins with the length of its contents, followed by literal bytes and copies of earlier
contents.
-/

namespace SchemaOnRead.Snappy

/-- A number of seven bits a byte, the lowest first. -/
def sevenBit : Nat → Nat → List UInt8 → Option (Nat × List UInt8)
  | 10, _, _ => none
  | _, _, [] => none
  | i, n, b :: rest =>
    if b < 128 then some (n + b.toNat * twoTo (7 * i), rest)
    else sevenBit (i + 1) (n + (b.toNat - 128) * twoTo (7 * i)) rest

/-- Copies earlier contents, if they reach back far enough. -/
def copy (distance length : Nat) (out : Array UInt8) : Option (Array UInt8) :=
  if distance = 0 ∨ out.size < distance then none else some (copyBack distance length out)

/-- Decodes elements up to the end of the block. Contents longer than `size` are refused. -/
def elements (size : Nat) : Nat → Array UInt8 → List UInt8 → Option (Array UInt8)
  | _, out, [] => if out.size = size then some out else none
  | 0, _, _ => none
  | fuel + 1, out, tag :: bs => do
    if size < out.size then none
    let high := tag.toNat / 4
    match tag.toNat % 4 with
    | 0 =>
      let (length, bs) ←
        if high < 60 then some (high + 1, bs)
        else (splitBytes? (high - 59) bs).map fun (field, bs) => (littleEndian field + 1, bs)
      let (bytes, bs) ← splitBytes? length bs
      elements size fuel (pushBytes out bytes) bs
    | 1 =>
      match bs with
      | low :: bs =>
        let out ← copy (high / 8 * 256 + low.toNat) (high % 8 + 4) out
        elements size fuel out bs
      | [] => none
    | kind =>
      let (field, bs) ← splitBytes? (if kind = 2 then 2 else 4) bs
      let out ← copy (littleEndian field) (high + 1) out
      elements size fuel out bs

/-- The contents of a block. -/
def decode? (bs : List UInt8) : Option (List UInt8) := do
  let (size, rest) ← sevenBit 0 0 bs
  if twoTo 32 ≤ size then none
  let out ← elements size (rest.length + 1) #[] rest
  return out.toList

end SchemaOnRead.Snappy
