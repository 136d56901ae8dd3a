import SchemaOnRead.Text.Blank
import SchemaOnRead.Text.Digit

/-!
# Tokens of statements

The words, names in quotes, texts, numbers and symbols that statements are made of. Blanks and
comments stand between them; comments in stars may hold others. A text or a name in quotes that does
not end is the one fault there is.
-/

namespace SchemaOnRead.Sql

open Text

/-- A token of a statement. -/
inductive Token where
  | word (s : String)
  | name (s : String)
  | text (s : String)
  | number (s : String)
  | symbol (s : String)
  deriving DecidableEq, Repr

namespace Token

/-- The characters that stand alone or begin a symbol. -/
def symbolChars : List Char := "()[]\x7b\x7d&^:,-.+;/\\*~|=<>%!?@#$".toList

/-- The symbols of two characters. -/
def longSymbols : List (List Char) :=
  ["<>", "<=", ">=", "==", "!=", "||", "::"].map (·.toList)

/-- The characters that may stand in a word. -/
def isWordChar (c : Char) : Bool :=
  !isBlank c && !symbolChars.contains c && c != '\'' && c != '"' && c != '\x60'

/-- What follows a comment in stars, read inside `depth` of them; a comment that does not end goes up
to the end. -/
def afterComment : Nat → List Char → List Char
  | 0, cs => cs
  | _, [] => []
  | depth + 1, '*' :: '/' :: rest => afterComment depth rest
  | depth + 1, '/' :: '*' :: rest => afterComment (depth + 2) rest
  | depth + 1, _ :: rest => afterComment (depth + 1) rest

/-- The rest of a quoted text up to its closing quote, which is written twice inside. -/
def quotedFrom (quote : Char) (acc : List Char) : List Char → Option (String × List Char)
  | [] => none
  | c :: rest =>
    if c = quote then
      match rest with
      | d :: after =>
        if d = quote then quotedFrom quote (quote :: acc) after
        else some (String.ofList acc.reverse, d :: after)
      | [] => some (String.ofList acc.reverse, [])
    else quotedFrom quote (c :: acc) rest

/-- A fraction with its point. -/
def fraction : List Char → List Char × List Char
  | '.' :: rest => ('.' :: rest.takeWhile isAsciiDigit, rest.dropWhile isAsciiDigit)
  | cs => ([], cs)

/-- The sign of an exponent. -/
def exponentSign : List Char → List Char × List Char
  | '+' :: rest => (['+'], rest)
  | '-' :: rest => (['-'], rest)
  | cs => ([], cs)

/-- An exponent with its letter. -/
def exponent : List Char → List Char × List Char
  | c :: rest =>
    if c = 'e' ∨ c = 'E' then
      let (sign, body) := exponentSign rest
      (c :: sign ++ body.takeWhile isAsciiDigit, body.dropWhile isAsciiDigit)
    else ([], c :: rest)
  | [] => ([], [])

/-- A number from its first digit on. -/
def numberAt (cs : List Char) : String × List Char :=
  let whole := cs.takeWhile isAsciiDigit
  let (fraction, rest) := fraction (cs.drop whole.length)
  let (exponent, rest) := exponent rest
  (String.ofList (whole ++ fraction ++ exponent), rest)

/-- The symbol at the start of a text. -/
def symbolAt (cs : List Char) : Option (String × List Char) :=
  match longSymbols.find? (·.isPrefixOf cs) with
  | some s => some (String.ofList s, cs.drop s.length)
  | none =>
    match cs with
    | c :: rest => if symbolChars.contains c then some (String.singleton c, rest) else none
    | [] => none

/-- The next token of a text that begins with no blank and no comment. -/
def next? : List Char → Option (Token × List Char)
  | [] => none
  | '\'' :: rest => (quotedFrom '\'' [] rest).map fun (s, after) => (.text s, after)
  | '"' :: rest => (quotedFrom '"' [] rest).map fun (s, after) => (.name s, after)
  | c :: rest =>
    if isAsciiDigit c then
      let (s, after) := numberAt (c :: rest)
      some (.number s, after)
    else match symbolAt (c :: rest) with
      | some (s, after) => some (.symbol s, after)
      | none =>
        let word := (c :: rest).takeWhile isWordChar
        if word.isEmpty then none
        else some (.word (String.ofList word), (c :: rest).drop word.length)

/-- The tokens of a text; every step takes at least one character. -/
def readFrom : Nat → List Char → Option (List Token)
  | 0, _ => some []
  | fuel + 1, cs =>
    match cs with
    | [] => some []
    | '-' :: '-' :: rest => readFrom fuel (rest.dropWhile fun c => c ≠ '\n' && c ≠ '\r')
    | '/' :: '*' :: rest => readFrom fuel (afterComment 1 rest)
    | c :: rest =>
      if isBlank c then readFrom fuel rest
      else match next? (c :: rest) with
        | none => none
        | some (t, after) => (readFrom fuel after).map (t :: ·)

/-- The tokens of a text. -/
def read (text : String) : Option (List Token) := readFrom (text.length + 1) text.toList

end Token

end SchemaOnRead.Sql
