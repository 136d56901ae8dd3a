/-!
# Powers

The powers of the two bases that numbers are written in.
-/

namespace SchemaOnRead

/-- A power of two. -/
abbrev twoTo (n : Nat) : Nat := Nat.pow 2 n

/-- A power of ten. -/
abbrev tenTo (n : Nat) : Nat := Nat.pow 10 n

end SchemaOnRead
