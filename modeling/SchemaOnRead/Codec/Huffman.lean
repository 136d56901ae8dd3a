import SchemaOnRead.Codec.Bits

/-!
# Canonical prefix codes

A canonical code is determined by the lengths of its code words: shorter words come first, words of
one length are in the order of their symbols. A code keeps the number of words of each length, from
one bit on, and the symbols in the order of their words.
-/

namespace SchemaOnRead

/-- A canonical code. -/
structure PrefixCode where
  counts : List Nat
  symbols : Array Nat

namespace PrefixCode

/-- The greatest length of a code word. -/
def maxLength : Nat := 20

/-- The code with the given lengths of the words of the symbols 0, 1, …; length zero means that a
symbol has no word. -/
def ofLengths (lengths : List Nat) : PrefixCode where
  counts := (List.range maxLength).map fun n => lengths.count (n + 1)
  symbols :=
    ((List.range maxLength).flatMap fun n =>
      (lengths.zipIdx.filter (·.1 = n + 1)).map (·.2)).toArray

/-- How many code words of the greatest length could still be added: negative if the code has too
many words. -/
def slack (c : PrefixCode) : Int :=
  c.counts.foldl (fun left (n : Nat) => 2 * left - n) (1 : Int)

/-- Reads a symbol bit by bit. `first` is the first code word of a length and `index` the place of
its symbol. -/
def readFrom (bit : Bits → Option (Nat × Bits)) (symbols : Array Nat) :
    List Nat → Nat → Nat → Nat → Bits → Option (Option Nat × Bits)
  | [], _, _, _, b => some (none, b)
  | n :: counts, code, first, index, b =>
    match bit b with
    | none => none
    | some (x, b) =>
      let code := 2 * code + x
      if code < first + n then some (symbols[index + (code - first)]?, b)
      else readFrom bit symbols counts code (2 * (first + n)) (index + n) b

/-- Reads a symbol of a code whose bits are taken from the low end of each byte. Nothing is read at
the end of the bits; no symbol is read if the bits are no code word. -/
def readLow (c : PrefixCode) (b : Bits) : Option (Option Nat × Bits) :=
  readFrom (Bits.takeLow 1) c.symbols c.counts 0 0 0 b

/-- Reads a symbol of a code whose bits are taken from the high end of each byte. -/
def readHigh (c : PrefixCode) (b : Bits) : Option (Option Nat × Bits) :=
  readFrom (Bits.takeHigh 1) c.symbols c.counts 0 0 0 b

end PrefixCode

end SchemaOnRead
