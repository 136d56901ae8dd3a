/-!
# UTF-8

Decoding bytes as UTF-8 in pieces. Bytes at the end of a piece that begin a character are kept for
the next piece. What is not well-formed either stops decoding or, in the lossy form, stands for the
replacement character.
-/

namespace SchemaOnRead.Utf8

/-- Why bytes are not well-formed. -/
inductive Fault where
  | startByte
  | continuationByte
  | cutOff
  deriving DecidableEq, Repr

/-- The wording of a fault. -/
def Fault.message : Fault → String
  | startByte => "invalid start byte"
  | continuationByte => "invalid continuation byte"
  | cutOff => "unexpected end of data"

/-- What a piece holds: its characters, the bytes that begin one more, and the fault at which
decoding stopped if it did. -/
structure Piece where
  chars : List Char
  pending : List UInt8 := []
  fault : Option Fault := none

/-- Puts a character in front. -/
def Piece.cons (c : Char) (p : Piece) : Piece := { p with chars := c :: p.chars }

/-- Whether a byte may follow in a character. -/
def isContinuation (b : UInt8) : Bool := 0x80 ≤ b && b ≤ 0xBF

/-- Whether a byte may be the second one of a character, which for some first bytes excludes
overlong forms, surrogates, and numbers beyond the last character. -/
def isSecond (first b : UInt8) : Bool :=
  if first = 0xE0 then 0xA0 ≤ b && b ≤ 0xBF
  else if first = 0xED then 0x80 ≤ b && b ≤ 0x9F
  else if first = 0xF0 then 0x90 ≤ b && b ≤ 0xBF
  else if first = 0xF4 then 0x80 ≤ b && b ≤ 0x8F
  else isContinuation b

/-- The six bits that a byte contributes to a character. -/
def low (b : UInt8) : Nat := b.toNat % 64

/-- The character that replaces what is not well-formed. -/
def replacement : Char := '\uFFFD'

/-- Goes on after bytes that are not well-formed if decoding is lossy, else stops. -/
def faulty (lossy : Bool) (f : Fault) (next : Piece) : Piece :=
  if lossy then next.cons replacement else { chars := [], fault := some f }

/-- Decodes a piece. -/
def decode (lossy : Bool) : List UInt8 → Piece
  | [] => { chars := [] }
  | a :: r =>
    if a < 0x80 then (decode lossy r).cons (Char.ofNat a.toNat)
    else if a < 0xC2 || 0xF4 < a then faulty lossy .startByte (decode lossy r)
    else
      match r with
      | [] => { chars := [], pending := [a] }
      | b :: s =>
        if !isSecond a b then faulty lossy .continuationByte (decode lossy (b :: s))
        else if a < 0xE0 then (decode lossy s).cons (Char.ofNat (a.toNat % 32 * 64 + low b))
        else
          match s with
          | [] => { chars := [], pending := [a, b] }
          | c :: t =>
            if !isContinuation c then faulty lossy .continuationByte (decode lossy (c :: t))
            else if a < 0xF0 then
              (decode lossy t).cons (Char.ofNat ((a.toNat % 16 * 64 + low b) * 64 + low c))
            else
              match t with
              | [] => { chars := [], pending := [a, b, c] }
              | d :: u =>
                if !isContinuation d then faulty lossy .continuationByte (decode lossy (d :: u))
                else (decode lossy u).cons
                  (Char.ofNat (((a.toNat % 8 * 64 + low b) * 64 + low c) * 64 + low d))

/-- What bytes left over at the end of the text stand for: nothing if there are none. -/
def finish (lossy : Bool) (pending : List UInt8) : Piece :=
  if pending.isEmpty then { chars := [] } else faulty lossy .cutOff { chars := [] }

/-- The text that bytes hold, if they are well-formed. -/
def text? (bs : List UInt8) : Except Fault (List Char) :=
  let p := decode false bs
  match p.fault with
  | some f => .error f
  | none => if p.pending.isEmpty then .ok p.chars else .error .cutOff

end SchemaOnRead.Utf8
