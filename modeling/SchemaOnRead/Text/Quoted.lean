import SchemaOnRead.Text.Printable

/-!
# Quoted text

A text inside quotes, with everything escaped that would not be readable as it stands. The quote is
single unless the text holds single quotes and no double ones.
-/

namespace SchemaOnRead.Text

/-- The hexadecimal digits of a number, in lower case, padded to a width. -/
def hexDigits (width n : Nat) : List Char :=
  let ds := Nat.toDigits 16 n
  List.replicate (width - ds.length) '0' ++ ds

/-- The hexadecimal notation of a character: two digits if they suffice, else four, else eight. -/
def hexEscape (c : Char) : List Char :=
  let n := c.toNat
  if n ≤ 0xFF then '\\' :: 'x' :: hexDigits 2 n
  else if n ≤ 0xFFFF then '\\' :: 'u' :: hexDigits 4 n
  else '\\' :: 'U' :: hexDigits 8 n

/-- A character in ASCII: escaped if it is none of its characters. -/
def asciiChar (c : Char) : List Char := if c.toNat < 128 then [c] else hexEscape c

/-- How one character is written between two quotes. -/
def quotedChar (quote c : Char) : List Char :=
  if c = quote ∨ c = '\\' then ['\\', c]
  else if c = '\t' then ['\\', 't']
  else if c = '\n' then ['\\', 'n']
  else if c = '\r' then ['\\', 'r']
  else if isPrintable c then [c]
  else hexEscape c

/-- The quote around a text. -/
def quoteFor (cs : List Char) : Char :=
  if cs.contains '\'' && !cs.contains '"' then '"' else '\''

/-- A text in quotes. -/
def quoted (cs : List Char) : List Char :=
  let q := quoteFor cs
  q :: cs.flatMap (quotedChar q) ++ [q]

/-- A string in quotes. -/
def quote (s : String) : String := String.ofList (quoted s.toList)

end SchemaOnRead.Text
