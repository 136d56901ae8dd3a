import SchemaOnRead.Value

/-!
# Writing JSON text

`Json.compact` writes a value without any white space and keeps the digits of every number;
characters beyond ASCII stand as they are. `Json.pretty` writes documents for people: one entry a
line, indented, in ASCII.
-/

namespace SchemaOnRead.Json

open Text

/-- The escape with which a character is always written in a string, if it has one. -/
def escape? (c : Char) : Option (List Char) :=
  if c = '"' then some ['\\', '"']
  else if c = '\\' then some ['\\', '\\']
  else if c = '\n' then some ['\\', 'n']
  else if c = '\r' then some ['\\', 'r']
  else if c = '\t' then some ['\\', 't']
  else if c = '\x08' then some ['\\', 'b']
  else if c = '\x0c' then some ['\\', 'f']
  else if c.toNat < 32 then some ('\\' :: 'u' :: hexDigits 4 c.toNat)
  else none

/-- A character of a string that may hold any character. -/
def stringChar (c : Char) : List Char := (escape? c).getD [c]

/-- The escape of a character by its code units. -/
def unitEscape (c : Char) : List Char :=
  let n := c.toNat
  if n < 0x10000 then '\\' :: 'u' :: hexDigits 4 n
  else
    let m := n - 0x10000
    '\\' :: 'u' :: hexDigits 4 (0xD800 + m / 0x400) ++
      '\\' :: 'u' :: hexDigits 4 (0xDC00 + m % 0x400)

/-- A character of a string in ASCII. -/
def asciiChar (c : Char) : List Char :=
  (escape? c).getD (if c.toNat < 128 then [c] else unitEscape c)

/-- A string between double quotes. -/
def stringWith (char : Char → List Char) (s : String) : List Char :=
  '"' :: s.toList.flatMap char ++ ['"']

/-- The text of a double. -/
def doubleChars (x : Binary64) : List Char := x.render ⟨"NaN", "Infinity"⟩

mutual

/-- A value without white space. -/
def compactChars : Value → List Char
  | .null => "null".toList
  | .bool b => if b then "true".toList else "false".toList
  | .integer n => Text.ofInt n
  | .decimal d => d.chars
  | .double x => doubleChars x
  | .text s => stringWith stringChar s
  | .list items => '[' :: compactItems items ++ [']']
  | .object fields => '\x7b' :: compactFields fields ++ ['\x7d']

/-- The items of a list with commas between them. -/
def compactItems : List Value → List Char
  | [] => []
  | [v] => compactChars v
  | v :: rest => compactChars v ++ ',' :: compactItems rest

/-- The fields of an object with commas between them. -/
def compactFields : List (String × Value) → List Char
  | [] => []
  | [(k, v)] => stringWith stringChar k ++ ':' :: compactChars v
  | (k, v) :: rest => stringWith stringChar k ++ ':' :: compactChars v ++ ',' :: compactFields rest

end

/-- A value as compact JSON text. -/
def compact (v : Value) : String := String.ofList (compactChars v)

/-- A line break followed by the indentation of a depth. -/
def lineBreak (depth : Nat) : List Char := '\n' :: List.replicate (2 * depth) ' '

mutual

/-- A value in ASCII over several lines, its own entries at the given depth plus one. -/
def prettyChars (depth : Nat) : Value → List Char
  | .list [] => ['[', ']']
  | .list items => '[' :: prettyItems (depth + 1) items ++ lineBreak depth ++ [']']
  | .object [] => ['\x7b', '\x7d']
  | .object fields => '\x7b' :: prettyFields (depth + 1) fields ++ lineBreak depth ++ ['\x7d']
  | .text s => stringWith asciiChar s
  | .null => "null".toList
  | .bool b => if b then "true".toList else "false".toList
  | .integer n => Text.ofInt n
  | .decimal d => d.chars
  | .double x => doubleChars x

/-- The items of a list, each on a line of its own. -/
def prettyItems (depth : Nat) : List Value → List Char
  | [] => []
  | [v] => lineBreak depth ++ prettyChars depth v
  | v :: rest => lineBreak depth ++ prettyChars depth v ++ ',' :: prettyItems depth rest

/-- The fields of an object, each on a line of its own. -/
def prettyFields (depth : Nat) : List (String × Value) → List Char
  | [] => []
  | [(k, v)] => lineBreak depth ++ stringWith asciiChar k ++ ':' :: ' ' :: prettyChars depth v
  | (k, v) :: rest =>
    lineBreak depth ++ stringWith asciiChar k ++ ':' :: ' ' :: prettyChars depth v ++
      ',' :: prettyFields depth rest

end

/-- A value as indented JSON text in ASCII. -/
def pretty (v : Value) : String := String.ofList (prettyChars 0 v)

end SchemaOnRead.Json
