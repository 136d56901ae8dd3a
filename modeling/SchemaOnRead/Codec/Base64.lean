/-!
# Base64

Binary data as text: four characters of a 64 letter alphabet for three bytes, the last group filled
up with equals signs. `Base64.decode?` accepts no other characters. A last group may end in bits
that are not zero, and equals signs may follow a group that is complete.
-/

namespace SchemaOnRead.Base64

/-- The value of a letter of the alphabet. -/
def letter? (c : Char) : Option Nat :=
  if 'A' ≤ c ∧ c ≤ 'Z' then some (c.toNat - 65)
  else if 'a' ≤ c ∧ c ≤ 'z' then some (c.toNat - 71)
  else if '0' ≤ c ∧ c ≤ '9' then some (c.toNat + 4)
  else if c = '+' then some 62
  else if c = '/' then some 63
  else none

/-- The letters at the start of a text, and what follows them. -/
def letters : List Char → List Nat × List Char
  | [] => ([], [])
  | c :: rest =>
    match letter? c with
    | some n => let (ns, after) := letters rest; (n :: ns, after)
    | none => ([], c :: rest)

/-- The bytes of groups of letters. A last group of two or three letters has one or two bytes. -/
def bytes : List Nat → List UInt8
  | a :: b :: c :: d :: rest =>
    UInt8.ofNat (a * 4 + b / 16) :: UInt8.ofNat (b % 16 * 16 + c / 4) ::
      UInt8.ofNat (c % 4 * 64 + d) :: bytes rest
  | [a, b, c] => [UInt8.ofNat (a * 4 + b / 16), UInt8.ofNat (b % 16 * 16 + c / 4)]
  | [a, b] => [UInt8.ofNat (a * 4 + b / 16)]
  | _ => []

/-- Whether the end of a text fills up its last group: a group that lacks letters is filled up
exactly, and after complete groups there may be equals signs unless they are all there is. -/
def filled (count : Nat) (fill : List Char) : Bool :=
  fill.all (· == '=') &&
    match count % 4 with
    | 0 => fill.isEmpty || count != 0
    | 2 => fill.length == 2
    | 3 => fill.length == 1
    | _ => false

/-- The data that a text encodes. -/
def decode? (cs : List Char) : Option (List UInt8) :=
  let (ns, fill) := letters cs
  if filled ns.length fill then some (bytes ns) else none

end SchemaOnRead.Base64
