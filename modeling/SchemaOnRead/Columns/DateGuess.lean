import SchemaOnRead.Text.Blank
import SchemaOnRead.Text.Digit
import SchemaOnRead.Text.Lowercase

/-!
# Guessing date patterns

A text in a field whose name speaks of dates may be a date. The first shape that the text has gives
the pattern by which it is read.
-/

namespace SchemaOnRead.DateGuess

open Text

/-- A part of a shape. -/
inductive Part where
  | digits (least most : Nat)
  | letters (least : Nat) (most : Option Nat)
  | blank
  | char (c : Char)
  deriving DecidableEq, Repr

/-- Whether a character is a small letter of ASCII. -/
def isLetter (c : Char) : Bool := 'a' ≤ c && c ≤ 'z'

/-- Takes at most `most` characters of a kind, as many as there are, but at least `least`. -/
def takeRun (kind : Char → Bool) (least : Nat) (most : Option Nat) (cs : List Char) :
    Option (List Char) :=
  let run := cs.takeWhile kind
  let count := match most with
    | some n => min n run.length
    | none => run.length
  if least ≤ count then some (cs.drop count) else none

/-- Takes a part from the start of a text. -/
def Part.take? : Part → List Char → Option (List Char)
  | digits least most, cs => takeRun isDigit least (some most) cs
  | letters least most, cs => takeRun isLetter least most cs
  | blank, c :: rest => if isBlank c then some rest else none
  | char d, c :: rest => if c = d then some rest else none
  | _, [] => none

/-- Whether a text has a shape; a line feed may follow it. -/
def hasShape : List Part → List Char → Bool
  | [], rest => rest.isEmpty || rest == ['\n']
  | p :: parts, cs =>
    match p.take? cs with
    | some rest => hasShape parts rest
    | none => false

/-- The shapes of dates with their patterns, in the order in which they are tried. -/
def shapes : List (List Part × String) :=
  let year : Part := .digits 4 4
  let short : Part := .digits 1 2
  [([.digits 8 8], "%Y%m%d"),
    ([short, .char '-', short, .char '-', year], "%d-%m-%Y"),
    ([year, .char '-', short, .char '-', short], "%Y-%m-%d"),
    ([short, .char '/', short, .char '/', year], "%m/%d/%Y"),
    ([year, .char '/', short, .char '/', short], "%Y/%m/%d"),
    ([short, .blank, .letters 3 (some 3), .blank, year], "%d %b %Y"),
    ([short, .blank, .letters 4 none, .blank, year], "%d %B %Y")]

/-- Words that make a field's name speak of dates. -/
def keywords : List String := ["date", "timestamp"]

/-- Whether a text stands somewhere in another one. -/
def contains (cs : List Char) (word : List Char) : Bool :=
  match cs with
  | [] => word.isEmpty
  | c :: rest => word.isPrefixOf (c :: rest) || contains rest word

/-- Whether the name of a field speaks of dates. -/
def isDateName (name : String) : Bool :=
  let cs := lower name.toList
  keywords.any fun k => contains cs k.toList

/-- The pattern of a text, by its shape in lower case. -/
def ofText? (s : String) : Option String :=
  let cs := lower s.toList
  (shapes.find? fun shape => hasShape shape.1 cs).map (·.2)

/-- The pattern by which the text of a field is read as a date, if it seems to be one. -/
def find? (name value : String) : Option String := if isDateName name then ofText? value else none

end SchemaOnRead.DateGuess
