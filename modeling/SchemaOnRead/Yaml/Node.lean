import SchemaOnRead.Calendar.Date
import SchemaOnRead.Value

/-!
# YAML nodes

A YAML document is made of nodes: scalars, lists, and maps whose keys are scalars of any kind. What a
scalar without quotes is, its form decides: `yes` is a truth value, `0x10`, `1_0` and `1:30` are
integers, `1.5` is a double and `1e5` a text.
-/

namespace SchemaOnRead.Yaml

open Text

/-- A node of a document. -/
inductive Node where
  | null
  | bool (b : Bool)
  | integer (n : Int)
  | double (x : Binary64)
  | date (d : Date)
  | text (s : String)
  | list (items : List Node)
  | map (entries : List (Node × Node))
  deriving Repr, Inhabited

namespace Node

/-! ## Scalars without quotes -/

/-- Whether a text is one of the words for a truth value: all letters small, all large, or only the
first one large. -/
def truth? (s : String) : Option Bool :=
  if ["yes", "Yes", "YES", "true", "True", "TRUE", "on", "On", "ON"].contains s then some true
  else if ["no", "No", "NO", "false", "False", "FALSE", "off", "Off", "OFF"].contains s then
    some false
  else none

/-- Whether a text stands for nothing. -/
def isNullWord (s : String) : Bool := ["", "~", "null", "Null", "NULL"].contains s

/-- The sign in front of a number, and the number without it. -/
def splitSign : List Char → Bool × List Char
  | '-' :: rest => (true, rest)
  | '+' :: rest => (false, rest)
  | cs => (false, cs)

/-- The number that the digits of a base denote; underscores between or after them do not count. -/
def inBase? (base : Nat) (cs : List Char) : Option Nat :=
  let ds := cs.filter (· ≠ '_')
  if ds.isEmpty then none
  else ds.foldlM (fun n c =>
    let value := if isAsciiDigit c then c.toNat - 48 else c.toLower.toNat - 87
    let isOfBase := (isAsciiDigit c || ('a' ≤ c.toLower && c.toLower ≤ 'f')) && value < base
    if isOfBase then some (base * n + value) else none) 0

/-- The parts of a text between colons. -/
def colonParts : List Char → List (List Char)
  | [] => [[]]
  | ':' :: rest => [] :: colonParts rest
  | c :: rest =>
    match colonParts rest with
    | part :: parts => (c :: part) :: parts
    | [] => [[c]]

/-- A part of a number in base sixty after the first one: below sixty, of one or two digits. -/
def sixtieth? : List Char → Option Nat
  | [c] => asciiDigit? c
  | [c, d] =>
    match asciiDigit? c, asciiDigit? d with
    | some a, some b => if a < 6 then some (10 * a + b) else none
    | _, _ => none
  | _ => none

/-- Whether a text begins with a digit and goes on with digits and underscores. -/
def isDigits : List Char → Bool
  | c :: rest => isAsciiDigit c && rest.all fun d => isAsciiDigit d || d = '_'
  | [] => false

/-- A natural number in any of its notations: binary, octal after a zero, hexadecimal, base sixty or
decimal. -/
def natural? : List Char → Option Nat
  | ['0'] => some 0
  | '0' :: 'b' :: rest => inBase? 2 rest
  | '0' :: 'x' :: rest => inBase? 16 rest
  | '0' :: rest => inBase? 8 ('0' :: rest)
  | cs =>
    match colonParts cs with
    | [ds] => if isDigits ds then inBase? 10 ds else none
    | ds :: rest =>
      if isDigits ds then do
        let first ← inBase? 10 ds
        let parts ← rest.mapM sixtieth?
        return parts.foldl (fun n p => 60 * n + p) first
      else none
    | [] => none

/-- An integer. -/
def integer? (cs : List Char) : Option Int :=
  let (negative, body) := splitSign cs
  (natural? body).map fun n => if negative then -(n : Int) else n

/-- What follows the digits of a fraction: nothing, or an exponent, which must have a sign. -/
def exponent? : List Char → Option Int
  | [] => some 0
  | e :: sign :: rest =>
    if (e = 'e' ∨ e = 'E') ∧ (sign = '-' ∨ sign = '+') ∧ !rest.isEmpty then do
      let n ← if rest.all isAsciiDigit then Text.natural? rest else none
      return if sign = '-' then -(n : Int) else n
    else none
  | _ => none

/-- A double in base sixty: parts between colons, and a fraction of the last part. The parts are added
up from the last one on. -/
def sexagesimal? (negative : Bool) (parts : List (List Char)) (fraction : List Char) :
    Option Binary64 :=
  match parts with
  | first :: next :: rest =>
    if !isDigits first then none
    else do
      let head ← inBase? 10 first
      let tail ← (next :: rest).mapM sixtieth?
      let digits := fraction.filter (· ≠ '_')
      match (head :: tail).reverse with
      | [] => none
      | last :: higher =>
        let scaled := last * tenTo digits.length + (Text.natural? digits).getD 0
        let least := Binary64.ofScientific negative scaled (-(digits.length : Int))
        return (higher.foldl (fun (x, weight) part =>
          (x.add (.ofRatio negative (part * weight) 1), 60 * weight)) (least, 60)).1
  | _ => none

/-- A double: digits with a point, or one of the words for what is infinite or no number. -/
def double? (cs : List Char) : Option Binary64 :=
  let (negative, body) := splitSign cs
  let word := String.ofList body
  if [".inf", ".Inf", ".INF"].contains word then some (.infinite negative)
  else if [".nan", ".NaN", ".NAN"].contains (String.ofList cs) then some .nan
  else
    let (whole, rest) := body.span (· ≠ '.')
    match rest with
    | '.' :: after =>
      let (fraction, tail) := after.span fun c => isAsciiDigit c || c = '_'
      let hasForm :=
        if whole.isEmpty then isDigits fraction && body = cs else isDigits whole
      if hasForm then do
        let e ← exponent? tail
        let digits := (whole ++ fraction).filter (· ≠ '_')
        let places := (fraction.filter (· ≠ '_')).length
        let c ← Text.natural? digits
        return .ofScientific negative c (e - places)
      else if tail.isEmpty then sexagesimal? negative (colonParts whole) fraction
      else none
    | _ => none

/-- A date: year, month and day of two digits each but the year. -/
def date? : List Char → Option (Option Date)
  | [y₁, y₂, y₃, y₄, '-', m₁, m₂, '-', d₁, d₂] => do
    let year ← [y₁, y₂, y₃, y₄].mapM asciiDigit?
    let month ← [m₁, m₂].mapM asciiDigit?
    let day ← [d₁, d₂].mapM asciiDigit?
    return Date.of? (ofDigits year) (ofDigits month) (ofDigits day)
  | _ => none

/-- The node that a scalar without quotes is; none for a date that is not one of the calendar, and for
the two signs that only stand for something inside a map. -/
def ofPlain (s : String) : Option Node :=
  let cs := s.toList
  if isNullWord s then some .null
  else match truth? s with
    | some b => some (.bool b)
    | none =>
      match double? cs, integer? cs, date? cs with
      | some x, _, _ => some (.double x)
      | _, some n, _ => some (.integer n)
      | _, _, some d => d.map .date
      | _, _, _ => if s == "=" || s == "<<" then none else some (.text s)

/-! ## Keys -/

/-- The number that a key counts as: a truth value is zero or one. -/
def number? : Node → Option Rat
  | bool b => some (if b then 1 else 0)
  | integer n => some n
  | double x => x.ratio?.map fun (n, d) => mkRat n d
  | _ => none

/-- Whether two keys are the same. -/
def sameKey (a b : Node) : Bool :=
  match a, b with
  | null, null => true
  | text s, text t => s == t
  | date d, date e => d == e
  | a, b =>
    match number? a, number? b with
    | some x, some y => x == y
    | _, _ => false

/-- Whether a node can be a key. -/
def isKey : Node → Bool
  | list _ | map _ => false
  | _ => true

/-- Sets an entry: a key that is there keeps its place. -/
def setEntry (key value : Node) : List (Node × Node) → List (Node × Node)
  | [] => [(key, value)]
  | (k, v) :: rest => if sameKey k key then (k, value) :: rest else (k, v) :: setEntry key value rest

/-- A map of entries in the order in which they are written: a repeated key keeps its first place and
its last value. -/
def ofEntries (entries : List (Node × Node)) : Node :=
  .map (entries.foldl (fun found (k, v) => setEntry k v found) [])

/-- The value of a key that is a text. -/
def entry? (entries : List (Node × Node)) (key : String) : Option Node :=
  (entries.find? fun e => sameKey e.1 (.text key)).map (·.2)

/-! ## Text of nodes -/

mutual

/-- A node as a literal in a message. -/
def literal : Node → List Char
  | null => "None".toList
  | bool b => if b then "True".toList else "False".toList
  | integer n => Text.ofInt n
  | double x => x.text.toList
  | date d => s!"datetime.date({d.year}, {d.month}, {d.day})".toList
  | text s => Text.quoted s.toList
  | list items => '[' :: literals items ++ [']']
  | map entries => '\x7b' :: entryLiterals entries ++ ['\x7d']

/-- The literals of a list's items, with commas between them. -/
def literals : List Node → List Char
  | [] => []
  | [v] => literal v
  | v :: rest => literal v ++ ',' :: ' ' :: literals rest

/-- The literals of a map's entries, with commas between them. -/
def entryLiterals : List (Node × Node) → List Char
  | [] => []
  | [(k, v)] => literal k ++ ':' :: ' ' :: literal v
  | (k, v) :: rest => literal k ++ ':' :: ' ' :: literal v ++ ',' :: ' ' :: entryLiterals rest

end

/-- A node as text: a text or a date as it is, anything else as a literal. -/
def shown : Node → String
  | text s => s
  | date d => d.text
  | v => String.ofList v.literal

/-! ## Nodes as values -/

mutual

/-- The value of a node; keys become texts. -/
def toValue : Node → Value
  | null => .null
  | bool b => .bool b
  | integer n => .integer n
  | double x => .double x
  | date d => .text d.text
  | text s => .text s
  | list items => .list (toValues items)
  | map entries => .object (toFields entries)

/-- The values of some nodes. -/
def toValues : List Node → List Value
  | [] => []
  | v :: rest => toValue v :: toValues rest

/-- The fields that the entries of a map are. -/
def toFields : List (Node × Node) → Value.Fields
  | [] => []
  | (k, v) :: rest => (k.shown, toValue v) :: toFields rest

end

/-- Whether a node counts as nothing: no value, false, zero, or empty. -/
def isEmpty : Node → Bool
  | null => true
  | bool b => !b
  | integer n => n == 0
  | double x => x.ratio?.any fun r => r.1 == 0
  | date _ => false
  | text s => s.isEmpty
  | list items => items.isEmpty
  | map entries => entries.isEmpty

end Node

end SchemaOnRead.Yaml
