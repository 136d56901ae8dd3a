import SchemaOnRead.Json.Reader
import SchemaOnRead.Text.Word

/-!
# Reading JSON5 text

JSON5 is JSON for people: comments, names without quotes, single quotes, commas after the last
entry, and more ways to write numbers. `Json5.read` reads a text that is exactly one value. A fault
is found at the first character that cannot go on from what stands before it.
-/

namespace SchemaOnRead.Json5

open Text

/-- Why a text could not be read: a character, or the end, with `remaining` characters left there, or
a number that looks like one and is none. -/
inductive Fault where
  | unexpected (remaining : Nat)
  | badNumber (digits : List Char)
  deriving DecidableEq, Repr

/-- Fails at the start of a text. -/
def unexpected {α : Type} (cs : List Char) : Except Fault α := .error (.unexpected cs.length)

/-! ## Blanks and comments -/

/-- Whether a character ends a line. -/
def isLineEnd (c : Char) : Bool := c == '\n' || c == '\r' || c == '\u2028' || c == '\u2029'

/-- Whether a character is a blank between tokens: a line end, a tab, a space of any script, or the
byte order mark. -/
def isSpace (c : Char) : Bool :=
  isLineEnd c || c == '\t' || c == '\x0b' || c == '\x0c' || c == ' ' || c == '\u00a0' ||
    c == '\u1680' || ('\u2000' ≤ c && c ≤ '\u200a') || c == '\u202f' || c == '\u205f' ||
    c == '\u3000' || c == '\uFEFF'

/-- What follows the end of a comment between stars, if it ends. -/
def afterComment? : List Char → Option (List Char)
  | '*' :: '/' :: rest => some rest
  | _ :: rest => afterComment? rest
  | [] => none

/-- Skips blanks and comments. -/
def skipFrom : Nat → List Char → Except Fault (List Char)
  | 0, cs => .ok cs
  | fuel + 1, cs =>
    match cs with
    | '/' :: '/' :: rest => skipFrom fuel (rest.dropWhile (!isLineEnd ·))
    | '/' :: '*' :: rest =>
      match afterComment? rest with
      | some rest => skipFrom fuel rest
      | none => unexpected []
    | '/' :: rest => unexpected rest
    | c :: rest => if isSpace c then skipFrom fuel rest else .ok (c :: rest)
    | [] => .ok []

/-- Skips blanks and comments; each of them takes at least one character. -/
def skip (cs : List Char) : Except Fault (List Char) := skipFrom (cs.length + 1) cs

/-! ## Strings -/

/-- The number that some hexadecimal digits denote, with the text after them. -/
def hexDigits : Nat → Nat → List Char → Except Fault (Nat × List Char)
  | 0, n, cs => .ok (n, cs)
  | count + 1, n, c :: rest =>
    match Json.hexDigit? c with
    | some d => hexDigits count (16 * n + d) rest
    | none => unexpected (c :: rest)
  | _ + 1, _, [] => unexpected []

/-- The character an escape of one letter stands for; other characters stand for themselves. -/
def letterEscape : Char → Char
  | 'b' => '\x08'
  | 'f' => '\x0c'
  | 'n' => '\n'
  | 'r' => '\r'
  | 't' => '\t'
  | 'v' => '\x0b'
  | c => c

/-- The character of an escape by code units, read after its letter `u`. The escapes of the two
halves of a surrogate pair make one character. -/
def unicodeEscape (cs : List Char) : Except Fault (Char × List Char) := do
  let (n, rest) ← hexDigits 4 0 cs
  if Json.isHighSurrogate n then
    match rest with
    | '\\' :: 'u' :: second =>
      match hexDigits 4 0 second with
      | .ok (m, after) =>
        if Json.isLowSurrogate m then
          return (Char.ofNat (0x10000 + (n - 0xD800) * 0x400 + (m - 0xDC00)), after)
        else return (Json.unitChar n, rest)
      | .error e => .error e
    | _ => return (Json.unitChar n, rest)
  else return (Json.unitChar n, rest)

/-- The character of an escape, read after the backslash; none for the end of a line, which the
escape takes out of the string. -/
def escape : List Char → Except Fault (Option Char × List Char)
  | 'x' :: rest => (hexDigits 2 0 rest).map fun (n, after) => (some (Char.ofNat n), after)
  | 'u' :: rest => (unicodeEscape rest).map fun (c, after) => (some c, after)
  | '0' :: d :: rest => if isAsciiDigit d then unexpected (d :: rest) else .ok (some '\x00', d :: rest)
  | ['0'] => .ok (some '\x00', [])
  | '\r' :: '\n' :: rest => .ok (none, rest)
  | c :: rest =>
    if isLineEnd c then .ok (none, rest)
    else if isAsciiDigit c then unexpected (c :: rest)
    else .ok (some (letterEscape c), rest)
  | [] => unexpected []

/-- The rest of a string up to its closing quote; `acc` is what has been read, last character
first. -/
def stringFrom (quote : Char) : Nat → List Char → List Char → Except Fault (String × List Char)
  | 0, _, cs => unexpected cs
  | fuel + 1, acc, cs =>
    match cs with
    | [] => unexpected []
    | '\\' :: rest =>
      match escape rest with
      | .error e => .error e
      | .ok (none, rest) => stringFrom quote fuel acc rest
      | .ok (some c, rest) => stringFrom quote fuel (c :: acc) rest
    | c :: rest =>
      if c = quote then .ok (String.ofList acc.reverse, rest)
      else if isLineEnd c then unexpected (c :: rest)
      else stringFrom quote fuel (c :: acc) rest

/-- A string, read after its opening quote. -/
def string (quote : Char) (cs : List Char) : Except Fault (String × List Char) :=
  stringFrom quote (cs.length + 1) [] cs

/-! ## Names -/

/-- Whether a name may begin with a character: a letter of any script, a dollar sign or an
underscore. -/
def startsName (c : Char) : Bool := c == '$' || c == '_' || (isWord c && !isDigit c)

/-- Whether a name may go on with a character. -/
def continuesName (c : Char) : Bool := startsName c || isDigit c || c == '\u200c' || c == '\u200d'

/-- The rest of a name; `acc` is what has been read, last character first. -/
def nameFrom : Nat → List Char → List Char → Except Fault (String × List Char)
  | 0, _, cs => unexpected cs
  | fuel + 1, acc, cs =>
    match cs with
    | '\\' :: 'u' :: rest =>
      match unicodeEscape rest with
      | .error e => .error e
      | .ok (c, rest) => nameFrom fuel (c :: acc) rest
    | '\\' :: rest => unexpected rest
    | c :: rest =>
      if (if acc.isEmpty then startsName c else continuesName c) then nameFrom fuel (c :: acc) rest
      else if acc.isEmpty then unexpected cs
      else .ok (String.ofList acc.reverse, cs)
    | [] => if acc.isEmpty then unexpected [] else .ok (String.ofList acc.reverse, [])

/-- The name of a member: a string or a name without quotes. -/
def name : List Char → Except Fault (String × List Char)
  | '"' :: rest => string '"' rest
  | '\'' :: rest => string '\'' rest
  | cs => nameFrom (cs.length + 1) [] cs

/-! ## Numbers -/

/-- The sign a number has by the signs in front of it, if it has at most one minus. -/
def signs : List Char → List Char × List Char
  | '-' :: rest => ('-' :: (signs rest).1, (signs rest).2)
  | '+' :: rest => signs rest
  | cs => ([], cs)

/-- Drops a word from the start of a text. -/
def word : List Char → List Char → Except Fault (List Char)
  | [], cs => .ok cs
  | w :: ws, c :: cs => if w = c then word ws cs else unexpected (c :: cs)
  | _ :: _, [] => unexpected []

/-- The exponent of a number with its letter, if there is one. -/
def exponentPart : List Char → List Char × List Char
  | c :: rest =>
    if c = 'e' ∨ c = 'E' then
      let (sign, body) := Json.exponentSign rest
      let (ds, after) := Decimal.spanDigits body
      (c :: sign ++ ds, after)
    else ([], c :: rest)
  | [] => ([], [])

/-- The fraction of a number with its point, if there is one. -/
def fractionPart : List Char → List Char × List Char
  | '.' :: rest =>
    let (ds, after) := Decimal.spanDigits rest
    ('.' :: ds, after)
  | cs => ([], cs)

/-- The whole digits of a number: a zero alone, or digits that do not begin with zero. -/
def wholePart : List Char → Except Fault (List Char × List Char)
  | '0' :: rest =>
    match rest with
    | d :: _ => if isAsciiDigit d then unexpected rest else .ok (['0'], rest)
    | [] => .ok (['0'], [])
  | cs => .ok (Decimal.spanDigits cs)

/-- The value of a number written with a fraction or an exponent. -/
def double (negative : Bool) (digits : List Char) : Except Fault Value :=
  match Binary64.ofText? (String.ofList digits) with
  | some x =>
    match x with
    | .finite _ m q => .ok (.double (.finite negative m q))
    | .infinite _ => .ok (.double (.infinite negative))
    | .nan => .ok (.double .nan)
  | none => .error (.badNumber digits)

/-- The value of an integer, of which every digit counts. -/
def integer (negative : Bool) (digits : List Char) : Except Fault Value :=
  if Json.maxDigits < digits.length then .error (.badNumber digits)
  else .ok (.integer (Decimal.signed negative ((natural? digits).getD 0)))

/-- A number after its signs; `minus` holds the minus signs. -/
def unsigned (minus : List Char) (cs : List Char) : Except Fault (Value × List Char) :=
  let negative := !minus.isEmpty
  let single (v : Except Fault Value) : Except Fault Value :=
    if 1 < minus.length then .error (.badNumber minus) else v
  match cs with
  | 'I' :: _ => do
    let rest ← word "Infinity".toList cs
    return (← single (.ok (.double (.infinite negative))), rest)
  | 'N' :: _ => do
    let rest ← word "NaN".toList cs
    return (← single (.ok (.double .nan)), rest)
  | '0' :: x :: rest =>
    if x = 'x' ∨ x = 'X' then
      let ds := rest.takeWhile fun c => (Json.hexDigit? c).isSome
      let after := rest.drop ds.length
      if ds.isEmpty then unexpected after
      else if negative then .error (.badNumber ds)
      else
        .ok (.integer ((ds.filterMap Json.hexDigit?).foldl (fun n d => 16 * n + d) 0 : Nat), after)
    else decimal single negative cs
  | _ => decimal single negative cs
where
  /-- A number in decimal digits. -/
  decimal (single : Except Fault Value → Except Fault Value) (negative : Bool) (cs : List Char) :
      Except Fault (Value × List Char) := do
    let (whole, rest) ← wholePart cs
    let (fraction, rest) := fractionPart rest
    if whole.isEmpty && fraction.isEmpty then unexpected rest
    else
      let (exponent, rest) := exponentPart rest
      match rest with
      | c :: _ => if startsName c then unexpected rest
      | [] => .ok ()
      if fraction.isEmpty && exponent.isEmpty then return (← single (integer negative whole), rest)
      else return (← single (double negative (whole ++ fraction ++ exponent)), rest)

/-- A number. -/
def number (cs : List Char) : Except Fault (Value × List Char) := unsigned (signs cs).1 (signs cs).2

/-! ## Values -/

mutual

/-- The value at the start of a text. -/
def valueFrom : Nat → List Char → Except Fault (Value × List Char)
  | 0, cs => unexpected cs
  | fuel + 1, cs =>
    match cs with
    | '"' :: rest => (string '"' rest).map fun (s, after) => (.text s, after)
    | '\'' :: rest => (string '\'' rest).map fun (s, after) => (.text s, after)
    | '\x7b' :: rest => (membersFrom fuel [] rest).map fun (ms, after) => (.object (Value.ofPairs ms), after)
    | '[' :: rest => (elementsFrom fuel [] rest).map fun (vs, after) => (.list vs, after)
    | 'n' :: _ => (word "null".toList cs).map fun after => (.null, after)
    | 't' :: _ => (word "true".toList cs).map fun after => (.bool true, after)
    | 'f' :: _ => (word "false".toList cs).map fun after => (.bool false, after)
    | _ => number cs

/-- The members of an object up to the closing brace; `acc` holds those before, last first. -/
def membersFrom : Nat → List (String × Value) → List Char →
    Except Fault (List (String × Value) × List Char)
  | 0, _, cs => unexpected cs
  | fuel + 1, acc, cs => do
    match ← skip cs with
    | '\x7d' :: rest => return (acc.reverse, rest)
    | cs =>
      let (key, rest) ← name cs
      match ← skip rest with
      | ':' :: rest =>
        let (v, rest) ← valueFrom fuel (← skip rest)
        match ← skip rest with
        | '\x7d' :: rest => return (((key, v) :: acc).reverse, rest)
        | ',' :: rest => membersFrom fuel ((key, v) :: acc) rest
        | rest => unexpected rest
      | rest => unexpected rest

/-- The elements of a list up to the closing bracket; `acc` holds those before, last first. -/
def elementsFrom : Nat → List Value → List Char → Except Fault (List Value × List Char)
  | 0, _, cs => unexpected cs
  | fuel + 1, acc, cs => do
    match ← skip cs with
    | ']' :: rest => return (acc.reverse, rest)
    | cs =>
      let (v, rest) ← valueFrom fuel cs
      match ← skip rest with
      | ']' :: rest => return ((v :: acc).reverse, rest)
      | ',' :: rest => elementsFrom fuel (v :: acc) rest
      | rest => unexpected rest

end

/-- The one value a text holds, with blanks and comments around it. Every step into a value or past
an element uses up a character, so twice the length bounds the steps. -/
def read (cs : List Char) : Except Fault Value := do
  let cs ← skip cs
  let (v, rest) ← valueFrom (2 * cs.length + 2) cs
  match ← skip rest with
  | [] => return v
  | rest => unexpected rest

/-- What is wrong with a text: its line, the unexpected character and its column. -/
def Fault.message (text : List Char) : Fault → String
  | unexpected remaining =>
    let before := text.take (text.length - remaining)
    let line := before.count '\n' + 1
    let column := (before.reverse.takeWhile (· ≠ '\n')).length + 1
    let found := match text.drop before.length with
      | c :: _ => String.ofList ['"', c, '"']
      | [] => "end of input"
    s!"line {line}: unexpected {found} at column {column}"
  | badNumber digits => s!"not a number: {String.ofList digits}"

/-- The value that a text holds, or what is wrong with the text. -/
def readText (s : String) : Except String Value := (read s.toList).mapError (Fault.message s.toList)

end SchemaOnRead.Json5
