import SchemaOnRead.Codec.Bits
import SchemaOnRead.Codec.Damage
import SchemaOnRead.Numeric.Power

/-!
# LZMA

Compressed data made of literal bytes and copies of earlier output, chosen by bits that a range coder
decodes with adaptive probabilities. `Lzma.decode2` reads a sequence of chunks, some of which reset
the coder; `Lzma.decodeAlone` reads a single run of symbols after a short header.
-/

namespace SchemaOnRead.Lzma

/-! ## Range coder -/

/-- The state of decoding: the probabilities in 2048ths, the range and the code within it, the bytes
to read and whether they ran out, the output, the state of the history, and the distances of the
last four copies less one. -/
structure State where
  chances : Array Nat
  range : Nat := 0xFFFFFFFF
  code : Nat := 0
  input : List UInt8
  short : Bool := false
  output : Array UInt8
  history : Nat := 0
  last : Nat × Nat × Nat × Nat := (0, 0, 0, 0)

/-- The parameters of the literal and position contexts. -/
structure Properties where
  literalContext : Nat
  literalPosition : Nat
  position : Nat

/-- A step of decoding; after the bytes have run out it goes on with zeros. -/
abbrev M := StateM State

/-- Keeps the range large enough. -/
def State.normalize (s : State) : State :=
  if s.range < twoTo 24 then
    match s.input with
    | [] => { s with range := s.range * 256, code := s.code * 256, short := true }
    | b :: rest => { s with range := s.range * 256, code := s.code * 256 + b.toNat, input := rest }
  else s

/-- Decodes a bit with the probability at a place, and adapts the probability. -/
def bit (place : Nat) : M Nat := modifyGet fun s =>
  let s := s.normalize
  let p := s.chances.getD place 1024
  let bound := s.range / 2048 * p
  if s.code < bound then
    (0, { s with range := bound, chances := s.chances.set! place (p + (2048 - p) / 32) })
  else
    (1, { s with
      range := s.range - bound, code := s.code - bound
      chances := s.chances.set! place (p - p / 32) })

/-- Decodes a bit for which both values are as likely. -/
def evenBit : M Nat := modifyGet fun s =>
  let s := s.normalize
  let half := s.range / 2
  if s.code < half then (0, { s with range := half })
  else (1, { s with range := half, code := s.code - half })

/-- Decodes `n` even bits, the highest first. -/
def evenBits : Nat → Nat → M Nat
  | 0, x => return x
  | n + 1, x => do evenBits n (2 * x + (← evenBit))

/-- Decodes `n` bits, the highest first, each with a probability that depends on those before;
`node` is one followed by the bits so far. -/
def treeFrom (base : Nat) : Nat → Nat → M Nat
  | 0, node => return node
  | n + 1, node => do treeFrom base n (2 * node + (← bit (base + node)))

def tree (base n : Nat) : M Nat := return (← treeFrom base n 1) - twoTo n

/-- Decodes `n` bits, the lowest first. -/
def reverseTreeFrom (base : Nat) : Nat → Nat → Nat → Nat → M Nat
  | 0, _, _, x => return x
  | n + 1, node, place, x => do
    let b ← bit (base + node)
    reverseTreeFrom base n (2 * node + b) (place + 1) (x + b * twoTo place)

def reverseTree (base n : Nat) : M Nat := reverseTreeFrom base n 1 0 0

/-! ## Places of probabilities -/

def isCopy (history position : Nat) : Nat := 16 * history + position
def isRepeat (history : Nat) : Nat := 192 + history
def isOlder (rank history : Nat) : Nat := 204 + 12 * rank + history
def isLongRepeat (history position : Nat) : Nat := 240 + 16 * history + position
def slotTree (lengthState : Nat) : Nat := 432 + 64 * lengthState
def distanceTrees : Nat := 688
def alignTree : Nat := 803
def lengthTrees : Nat := 819
def repeatLengthTrees : Nat := 1333
def literalTrees : Nat := 1847

/-- The probabilities at the start. -/
def freshChances (p : Properties) : Array Nat :=
  Array.replicate (literalTrees + 0x300 * twoTo (p.literalContext + p.literalPosition)) 1024

/-! ## Symbols -/

/-- Decodes the length of a copy. -/
def copyLength (base position : Nat) : M Nat := do
  if (← bit base) = 0 then return 2 + (← tree (base + 2 + 8 * position) 3)
  if (← bit (base + 1)) = 0 then return 10 + (← tree (base + 130 + 8 * position) 3)
  return 18 + (← tree (base + 258) 8)

/-- The bits of a literal as long as they agree with those of the byte at the last distance. -/
def matchedLiteral (base : Nat) : Nat → Nat → Nat → M Nat
  | 0, _, node => return node
  | n + 1, guide, node => do
    let g := guide / 128 % 2
    let b ← bit (base + 256 * (1 + g) + node)
    if b = g then matchedLiteral base n (2 * guide) (2 * node + b)
    else treeFrom base n (2 * node + b)

/-- The byte a number of places before the end of the output. -/
def State.back (s : State) (distance : Nat) : UInt8 := s.output.getD (s.output.size - distance) 0

/-- Decodes a literal byte. `position` counts the bytes since the last reset. A byte for which the
input does not suffice is not put out. -/
def literal (p : Properties) (position : Nat) : M Unit := do
  let s ← get
  let before := if position = 0 then 0 else (s.back 1).toNat
  let context := (position % twoTo p.literalPosition) * twoTo p.literalContext +
    before / twoTo (8 - p.literalContext)
  let base := literalTrees + 0x300 * context
  let node ←
    if 7 ≤ s.history then matchedLiteral base 8 (s.back (s.last.1 + 1)).toNat 1
    else treeFrom base 8 1
  modify fun s =>
    if s.short then s
    else { s with
      output := s.output.push (node % 256).toUInt8
      history :=
        if s.history < 4 then 0 else if s.history < 10 then s.history - 3 else s.history - 6 }

/-- Decodes the distance of a copy, less one. -/
def distance (length : Nat) : M Nat := do
  let slot ← tree (slotTree (min (length - 2) 3)) 6
  if slot < 4 then return slot
  let extra := slot / 2 - 1
  let high := (2 + slot % 2) * twoTo extra
  if slot < 14 then return high + (← reverseTree (distanceTrees + high - slot) extra)
  let middle ← evenBits (extra - 4) 0
  return high + middle * 16 + (← reverseTree alignTree 4)

/-- Decodes which of the last four distances a copy repeats, and puts it first. A short copy of one
byte yields no length. -/
def repeated (position : Nat) : M (Option Nat) := do
  let s ← get
  if (← bit (isOlder 0 s.history)) = 0 then
    if (← bit (isLongRepeat s.history position)) = 0 then
      modify fun s => { s with history := if s.history < 7 then 9 else 11 }
      return none
  else
    let (a, b, c, d) := s.last
    let order ←
      if (← bit (isOlder 1 s.history)) = 0 then pure (b, a, c, d)
      else do
        if (← bit (isOlder 2 s.history)) = 0 then pure (c, a, b, d)
        else pure (d, a, b, c)
    modify fun s => { s with last := order }
  let length ← copyLength repeatLengthTrees position
  modify fun s => { s with history := if s.history < 7 then 8 else 11 }
  return some length

/-- How a run of symbols ends: with as many bytes as were asked for, at the end mark, at a symbol that
does not fit, or where the input ends. -/
inductive Ending where
  | full
  | marked
  | misfit
  | cutOff
  deriving DecidableEq, Repr

/-- The distance, less one, that marks the end. -/
def endMark : Nat := 0xFFFFFFFF

/-- Decodes symbols until `left` further bytes are there, or up to the end mark. `origin` is where
the history begins. -/
def symbols (p : Properties) (origin : Nat) : Nat → Option Nat → M Ending
  | 0, _ => return .misfit
  | fuel + 1, left => do
    if left = some 0 then return .full
    let s ← get
    let position := s.output.size - origin
    let context := position % twoTo p.position
    if (← bit (isCopy s.history context)) = 0 then
      literal p position
      if (← get).short then return .cutOff
      symbols p origin fuel (left.map (· - 1))
    else
      let length ←
        if (← bit (isRepeat s.history)) = 0 then do
          let length ← copyLength lengthTrees context
          let (a, b, c, _) := s.last
          let d ← distance length
          modify fun s => { s with
            last := (d, a, b, c), history := if s.history < 7 then 7 else 10 }
          pure length
        else do pure ((← repeated context).getD 1)
      let s ← get
      if s.short then return .cutOff
      if s.last.1 = endMark then return .marked
      if left.any (· < length) ∨ s.output.size - origin < s.last.1 + 1 then return .misfit
      modify fun s => { s with output := copyBack (s.last.1 + 1) length s.output }
      symbols p origin fuel (left.map (· - length))

/-- Starts the range coder on its input: five bytes, the first of them zero. -/
def State.begin (s : State) : List UInt8 → Except Damage State
  | 0 :: a :: b :: c :: d :: rest => .ok { s with
      range := 0xFFFFFFFF, short := false, input := rest
      code := ((a.toNat * 256 + b.toNat) * 256 + c.toNat) * 256 + d.toNat }
  | [] => .error .cutOff
  | b :: _ => .error (if b = 0 then .cutOff else .corrupt)

/-! ## Chunks -/

/-- Properties packed into a byte. -/
def Properties.ofByte? (b : UInt8) : Option Properties :=
  let n := b.toNat
  let p : Properties := ⟨n % 9, n / 9 % 5, n / 45⟩
  if n < 225 ∧ p.literalContext + p.literalPosition ≤ 4 then some p else none

/-- What is kept between chunks: the output, where its history begins, the properties once they are
known, and the coder. -/
structure Chunks where
  output : Array UInt8
  origin : Nat
  properties : Option Properties := none
  coder : Option State := none
  needsReset : Bool := true

/-- Decodes a compressed chunk of `size` bytes, and tells what is wrong with it if something is.
`whole` tells whether all of its data are there; they have to be used up. -/
def chunk (c : Chunks) (p : Properties) (coder : State) (size : Nat) (whole : Bool)
    (data : List UInt8) : Chunks × Option Damage :=
  match { coder with output := c.output }.begin data with
  | .error d => (c, some (if whole then .corrupt else d))
  | .ok coder =>
    let (ending, s) := (symbols p c.origin (size + 1) (some size)).run coder
    let s := s.normalize
    let next : Chunks := { c with
      output := s.output, properties := some p, coder := some { s with output := #[] }
      needsReset := false }
    if ending = .full && whole && !s.short && s.input.isEmpty && s.code = 0 then (next, none)
    else if ending = .cutOff && !whole then (next, some .cutOff)
    else (next, some .corrupt)

/-- A coder at its start. -/
def State.fresh (p : Properties) : State :=
  { chances := freshChances p, input := [], output := #[] }

/-- The coder and the properties for a compressed chunk: `reset` is 0 to go on as before, 1 to reset
the coder, and 2 or 3 to take new properties first. -/
def prepare (c : Chunks) (reset : Nat) (rest : List UInt8) :
    Option (Properties × State × List UInt8) := do
  if 2 ≤ reset then
    match rest with
    | b :: rest =>
      let p ← Properties.ofByte? b
      return (p, .fresh p, rest)
    | [] => none
  else
    let p ← c.properties
    if reset = 1 then return (p, .fresh p, rest)
    else return (p, ← c.coder, rest)

/-- Reads a number of two bytes, most significant first. -/
def pair? : List UInt8 → Option (Nat × List UInt8)
  | a :: b :: rest => some (a.toNat * 256 + b.toNat, rest)
  | _ => none

/-- Decodes chunks up to their end mark. -/
def chunks : Nat → Chunks → List UInt8 → Decoded
  | 0, c, _ => ⟨c.output, .error .corrupt⟩
  | _, c, [] => ⟨c.output, .error .cutOff⟩
  | fuel + 1, c, control :: bs =>
    if control = 0 then ⟨c.output, .ok bs⟩
    else if control < 3 then
      if c.needsReset && control ≠ 1 then ⟨c.output, .error .corrupt⟩
      else match pair? bs with
        | none => ⟨c.output, .error .cutOff⟩
        | some (n, bs) =>
          let data := bs.take (n + 1)
          let origin := if control = 1 then c.output.size else c.origin
          let out := pushBytes c.output data
          if data.length < n + 1 then ⟨out, .error .cutOff⟩
          else
            let coder := c.coder.map fun s => { s with history := 0, last := (0, 0, 0, 0) }
            chunks fuel { c with output := out, origin, coder, needsReset := false } (bs.drop (n + 1))
    else if control < 128 then ⟨c.output, .error .corrupt⟩
    else
      let reset := control.toNat / 32 % 4
      if c.needsReset && reset ≠ 3 then ⟨c.output, .error .corrupt⟩
      else match pair? bs with
        | none => ⟨c.output, .error .cutOff⟩
        | some (low, bs) =>
          match pair? bs with
          | none => ⟨c.output, .error .cutOff⟩
          | some (packed, bs) =>
            let c := if reset = 3 then { c with origin := c.output.size } else c
            match prepare c reset bs with
            | none => ⟨c.output, .error .corrupt⟩
            | some (p, coder, bs) =>
              let data := bs.take (packed + 1)
              let size := (control.toNat % 32) * 65536 + low + 1
              match chunk c p coder size (data.length = packed + 1) data with
              | (c, some d) => ⟨c.output, .error d⟩
              | (c, none) => chunks fuel c (bs.drop (packed + 1))

/-- Decodes a sequence of chunks onto an output. -/
def decode2 (output : Array UInt8) (bs : List UInt8) : Decoded :=
  chunks (bs.length + 1) { output, origin := output.size } bs

/-! ## Data with a header of their own -/

/-- What the header declares: the properties, and the size of the contents if that is known. -/
structure Header where
  properties : Properties
  size : Option Nat

/-- Whether a dictionary may have a size: a power of two, one and a half of it, zero or the
largest. -/
def isDictionarySize (n : Nat) : Bool :=
  n = 0 || n = 0xFFFFFFFF || (List.range 32).any fun k => n = twoTo k || n = 3 * twoTo k

/-- Reads the header. -/
def header : List UInt8 → Except Damage (Header × List UInt8)
  | [] => .error .cutOff
  | b :: rest => do
    let some p := Properties.ofByte? b | throw .corrupt
    let some (dictionary, rest) := splitBytes? 4 rest | throw .cutOff
    if !isDictionarySize (littleEndian dictionary) then throw .corrupt
    let some (field, rest) := splitBytes? 8 rest | throw .cutOff
    let size := littleEndian field
    if size = twoTo 64 - 1 then return (⟨p, none⟩, rest)
    else if size < twoTo 38 then return (⟨p, some size⟩, rest)
    else throw .corrupt

/-- A bound on the number of symbols in bytes: a bit is never so likely that a byte holds more than
363 of them. -/
def symbolBound (bs : List UInt8) : Nat := 400 * (bs.length + 1)

/-- What follows the last symbol, if the coder is at its end. -/
def State.finish (s : State) : Except Damage (List UInt8) :=
  if s.short then .error .cutOff else if s.code = 0 then .ok s.input else .error .corrupt

/-- Decodes data that begin with a header. The end mark may follow contents of known size, and must
follow those of unknown size. -/
def decodeAlone (output : Array UInt8) (bs : List UInt8) : Decoded :=
  match header bs with
  | .error d => ⟨output, .error d⟩
  | .ok (h, rest) =>
    match { State.fresh h.properties with output }.begin rest with
    | .error d => ⟨output, .error d⟩
    | .ok coder =>
      let decoding := symbols h.properties output.size
      let (ending, s) := (decoding (symbolBound rest) h.size).run coder
      let s := s.normalize
      match ending with
      | .misfit => ⟨s.output, .error .corrupt⟩
      | .cutOff => ⟨s.output, .error .cutOff⟩
      | .marked => ⟨s.output, if h.size = none then s.finish else .error .corrupt⟩
      | .full =>
        if s.short || s.code = 0 then ⟨s.output, s.finish⟩
        else
          let (ending, s) := (decoding 1 none).run s
          ⟨s.output, if ending = .cutOff then .error .cutOff
            else if ending = .marked then s.normalize.finish else .error .corrupt⟩

end SchemaOnRead.Lzma
