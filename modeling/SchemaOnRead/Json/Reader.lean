import SchemaOnRead.Value

/-!
# Reading JSON text

`Json.value` reads one value at the start of a text and returns it with the rest of the text;
`Json.read` reads a text that is exactly one value. A fault says what was expected and how many
characters of the text were left there, so that callers can tell a text that is cut off from one
that is wrong. Numbers with a fraction or an exponent become decimals.
-/

namespace SchemaOnRead.Json

open Text

/-- What is wrong with a text that is no JSON value. -/
inductive Problem where
  | expectingValue
  | expectingComma
  | expectingColon
  | expectingName
  | unterminatedString
  | controlCharacter
  | badEscape
  | badUnicodeEscape
  | extraData
  deriving DecidableEq, Repr

/-- The wording of a problem. -/
def Problem.message : Problem → String
  | expectingValue => "Expecting value"
  | expectingComma => "Expecting ',' delimiter"
  | expectingColon => "Expecting ':' delimiter"
  | expectingName => "Expecting property name enclosed in double quotes"
  | unterminatedString => "Unterminated string starting at"
  | controlCharacter => "Invalid control character at"
  | badEscape => "Invalid \\escape"
  | badUnicodeEscape => "Invalid \\uXXXX escape"
  | extraData => "Extra data"

/-- Why a text could not be read: a problem with `remaining` characters of the text left where it
was found, a fraction whose exponent is out of range, or an integer with too many digits. -/
inductive Fault where
  | malformed (problem : Problem) (remaining : Nat)
  | exponentOutOfRange
  | tooManyDigits
  deriving DecidableEq, Repr

/-- The most digits an integer may be written with. -/
def maxDigits : Nat := 4300

/-- The white space between tokens. -/
def isSpace (c : Char) : Bool := c == ' ' || c == '\t' || c == '\n' || c == '\r'

def skipSpace (cs : List Char) : List Char := cs.dropWhile isSpace

/-! ## Strings -/

/-- The value of a hexadecimal digit. -/
def hexDigit? (c : Char) : Option Nat :=
  if '0' ≤ c ∧ c ≤ '9' then some (c.toNat - 48)
  else if 'a' ≤ c ∧ c ≤ 'f' then some (c.toNat - 87)
  else if 'A' ≤ c ∧ c ≤ 'F' then some (c.toNat - 55)
  else none

/-- The number four hexadecimal digits denote, with the text after them. -/
def hex4? : List Char → Option (Nat × List Char)
  | a :: b :: c :: d :: rest => do
    let a ← hexDigit? a
    let b ← hexDigit? b
    let c ← hexDigit? c
    let d ← hexDigit? d
    return (a * 4096 + b * 256 + c * 16 + d, rest)
  | _ => none

def isHighSurrogate (n : Nat) : Bool := 0xD800 ≤ n && n ≤ 0xDBFF
def isLowSurrogate (n : Nat) : Bool := 0xDC00 ≤ n && n ≤ 0xDFFF

/-- The character of a code unit. Half of a surrogate pair alone is no character, and the
replacement character is read for it: of a text that has one, what is read here says only that it
could be read, and what is said of strings and of names is said of texts without (`Paired`). -/
def unitChar (n : Nat) : Char :=
  if 0xD800 ≤ n ∧ n ≤ 0xDFFF then '\uFFFD' else Char.ofNat n

/-- The character an escape of one letter stands for. -/
def simpleEscape? : Char → Option Char
  | '"' => some '"'
  | '\\' => some '\\'
  | '/' => some '/'
  | 'b' => some '\x08'
  | 'f' => some '\x0c'
  | 'n' => some '\n'
  | 'r' => some '\r'
  | 't' => some '\t'
  | _ => none

/-- The character of a numeric escape, read after its letter `u`: four digits, followed by at
least one more character, and for the first half of a surrogate pair the escape of the second
half. -/
def unicodeEscape (cs : List Char) : Except Fault (Char × List Char) :=
  match hex4? cs with
  | some (n, rest) =>
    if rest.isEmpty then .error (.malformed .badUnicodeEscape (cs.length + 1))
    else if isHighSurrogate n then
      match rest with
      | '\\' :: 'u' :: second =>
        if second.length < 5 then .ok (unitChar n, rest)
        else match hex4? second with
          | none => .error (.malformed .badUnicodeEscape (second.length + 1))
          | some (m, after) =>
            if isLowSurrogate m then
              .ok (Char.ofNat (0x10000 + (n - 0xD800) * 0x400 + (m - 0xDC00)), after)
            else .ok (unitChar n, rest)
      | _ => .ok (unitChar n, rest)
    else .ok (unitChar n, rest)
  | none => .error (.malformed .badUnicodeEscape (cs.length + 1))

/-- The rest of a string up to its closing quote. `start` is the length of the text from the
opening quote, `acc` what has been read, last character first. -/
def stringRest (start : Nat) : Nat → List Char → List Char → Except Fault (String × List Char)
  | 0, _, _ => .error (.malformed .unterminatedString start)
  | fuel + 1, acc, cs =>
    match cs with
    | [] => .error (.malformed .unterminatedString start)
    | '"' :: rest => .ok (String.ofList acc.reverse, rest)
    | ['\\'] => .error (.malformed .unterminatedString start)
    | '\\' :: 'u' :: rest =>
      match unicodeEscape rest with
      | .error e => .error e
      | .ok (c, rest) => stringRest start fuel (c :: acc) rest
    | '\\' :: c :: rest =>
      match simpleEscape? c with
      | none => .error (.malformed .badEscape (rest.length + 2))
      | some e => stringRest start fuel (e :: acc) rest
    | c :: rest =>
      if c.toNat < 32 then .error (.malformed .controlCharacter cs.length)
      else stringRest start fuel (c :: acc) rest

/-- A string, read after its opening quote. -/
def string (cs : List Char) : Except Fault (String × List Char) :=
  stringRest (cs.length + 1) (cs.length + 1) [] cs

/-! ## Numbers -/

/-- The digits a number begins with: a zero alone, or digits that do not begin with zero. -/
def wholeDigits? : List Char → Option (List Char × List Char)
  | '0' :: rest => some (['0'], rest)
  | cs =>
    match Decimal.spanDigits cs with
    | ([], _) => none
    | found => some found

/-- The fraction of a number with its point, if digits follow the point. -/
def fractionPart : List Char → List Char × List Char
  | '.' :: rest =>
    match Decimal.spanDigits rest with
    | ([], _) => ([], '.' :: rest)
    | (ds, after) => ('.' :: ds, after)
  | cs => ([], cs)

/-- The sign an exponent begins with. -/
def exponentSign : List Char → List Char × List Char
  | '+' :: rest => (['+'], rest)
  | '-' :: rest => (['-'], rest)
  | cs => ([], cs)

/-- The exponent of a number with its letter, if digits follow. -/
def exponentPart : List Char → List Char × List Char
  | c :: rest =>
    if c = 'e' ∨ c = 'E' then
      let (sign, body) := exponentSign rest
      match Decimal.spanDigits body with
      | ([], _) => ([], c :: rest)
      | (ds, after) => (c :: sign ++ ds, after)
    else ([], c :: rest)
  | [] => ([], [])

/-- Whether a number has a minus sign, and what follows the sign. -/
def numberSign : List Char → Bool × List Char
  | '-' :: rest => (true, rest)
  | cs => (false, cs)

/-- The value of a number with the given parts: an integer, or a decimal if it has a fraction or an
exponent. -/
def numeral (negative : Bool) (whole fraction exponent : List Char) : Except Fault Value :=
  if fraction.isEmpty && exponent.isEmpty then
    if maxDigits < whole.length then .error .tooManyDigits
    else .ok (.integer (Decimal.signed negative ((natural? whole).getD 0)))
  else match Decimal.finite? negative (whole ++ fraction ++ exponent) with
    | some d => .ok (.decimal d)
    | none => .error .exponentOutOfRange

/-- A number. -/
def number (cs : List Char) : Except Fault (Value × List Char) :=
  match wholeDigits? (numberSign cs).2 with
  | none => .error (.malformed .expectingValue cs.length)
  | some (whole, rest) =>
    let (fraction, rest) := fractionPart rest
    let (exponent, rest) := exponentPart rest
    (numeral (numberSign cs).1 whole fraction exponent).map fun v => (v, rest)

/-! ## Values -/

/-- Drops a word from the start of a text. -/
def dropWord? : List Char → List Char → Option (List Char)
  | [], cs => some cs
  | w :: ws, c :: cs => if w = c then dropWord? ws cs else none
  | _ :: _, [] => none

/-- The words that stand for values. -/
def constants : List (List Char × Value) :=
  [("null".toList, .null), ("true".toList, .bool true), ("false".toList, .bool false),
    ("NaN".toList, .double .nan), ("Infinity".toList, .double (.infinite false)),
    ("-Infinity".toList, .double (.infinite true))]

/-- A word that stands for a value. -/
def constant? (cs : List Char) : Option (Value × List Char) :=
  constants.findSome? fun (word, v) => (dropWord? word cs).map fun rest => (v, rest)

mutual

/-- The value at the start of a text. -/
def valueFrom : Nat → List Char → Except Fault (Value × List Char)
  | 0, cs => .error (.malformed .expectingValue cs.length)
  | fuel + 1, cs =>
    match cs with
    | [] => .error (.malformed .expectingValue 0)
    | '"' :: rest => (string rest).map fun (s, after) => (.text s, after)
    | '\x7b' :: rest =>
      match skipSpace rest with
      | '\x7d' :: after => .ok (.object [], after)
      | inner => (membersFrom fuel [] inner).map fun (ms, after) => (.object (Value.ofPairs ms), after)
    | '[' :: rest =>
      match skipSpace rest with
      | ']' :: after => .ok (.list [], after)
      | inner => (elementsFrom fuel [] inner).map fun (vs, after) => (.list vs, after)
    | _ =>
      match constant? cs with
      | some found => .ok found
      | none => number cs

/-- The members of an object from a name on, up to the closing brace; `acc` holds those before,
last first. -/
def membersFrom : Nat → List (String × Value) → List Char →
    Except Fault (List (String × Value) × List Char)
  | 0, _, cs => .error (.malformed .expectingName cs.length)
  | fuel + 1, acc, cs =>
    match cs with
    | '"' :: rest =>
      match string rest with
      | .error e => .error e
      | .ok (key, rest) =>
        match skipSpace rest with
        | ':' :: rest =>
          match valueFrom fuel (skipSpace rest) with
          | .error e => .error e
          | .ok (v, rest) =>
            match skipSpace rest with
            | '\x7d' :: rest => .ok (((key, v) :: acc).reverse, rest)
            | ',' :: rest => membersFrom fuel ((key, v) :: acc) (skipSpace rest)
            | rest => .error (.malformed .expectingComma rest.length)
        | rest => .error (.malformed .expectingColon rest.length)
    | _ => .error (.malformed .expectingName cs.length)

/-- The elements of a list from one of them on, up to the closing bracket; `acc` holds those
before, last first. -/
def elementsFrom : Nat → List Value → List Char → Except Fault (List Value × List Char)
  | 0, _, cs => .error (.malformed .expectingValue cs.length)
  | fuel + 1, acc, cs =>
    match valueFrom fuel cs with
    | .error e => .error e
    | .ok (v, rest) =>
      match skipSpace rest with
      | ']' :: rest => .ok ((v :: acc).reverse, rest)
      | ',' :: rest => elementsFrom fuel (v :: acc) (skipSpace rest)
      | rest => .error (.malformed .expectingComma rest.length)

end

/-- The value at the start of a text, with the rest of the text. Every step into a value or past an
element uses up a character, so twice the length bounds the steps. -/
def value (cs : List Char) : Except Fault (Value × List Char) := valueFrom (2 * cs.length + 2) cs

/-- The one value a text holds, blanks around it aside. -/
def read (cs : List Char) : Except Fault Value :=
  match value (strip cs) with
  | .error e => .error e
  | .ok (v, []) => .ok v
  | .ok (_, rest) => .error (.malformed .extraData rest.length)

/-- The one value a string holds. -/
def readText (s : String) : Except Fault Value := read s.toList

/-- The message of a problem found with `remaining` characters left of a text: what was expected,
and the line, the column and the offset. -/
def positionMessage (text : List Char) (problem : Problem) (remaining : Nat) : String :=
  let before := text.take (text.length - remaining)
  let line := before.count '\n' + 1
  let column := (before.reverse.takeWhile (· ≠ '\n')).length + 1
  s!"{problem.message}: line {line} column {column} (char {before.length})"

end SchemaOnRead.Json
