import SchemaOnRead.Calendar.Moment
import SchemaOnRead.Display.Grid
import SchemaOnRead.Sql.Answer

/-!
# Cells as text

How the cells of an answer are shown to people: timestamps as date and time, bytes as a quoted literal
and maps as lists of pairs.
-/

namespace SchemaOnRead

namespace Cell

/-- A byte in a quoted literal. -/
def byteChars (quote : Char) (b : UInt8) : List Char :=
  let c := Char.ofNat b.toNat
  if c = quote ∨ c = '\\' then ['\\', c]
  else if c = '\t' then ['\\', 't']
  else if c = '\n' then ['\\', 'n']
  else if c = '\r' then ['\\', 'r']
  else if 32 ≤ b.toNat ∧ b.toNat < 127 then [c]
  else '\\' :: 'x' :: Text.hexDigits 2 b.toNat

/-- Bytes as a quoted literal. -/
def bytesText (bytes : List UInt8) : List Char :=
  let quote := Text.quoteFor (bytes.map fun b => Char.ofNat b.toNat)
  'b' :: quote :: bytes.flatMap (byteChars quote) ++ [quote]

/-- The entries of a map as a list of pairs. -/
def entriesText {α : Type} (value : α → Value) (entries : List (String × Option α)) : List Char :=
  let pair (e : String × Option α) : List Char :=
    '(' :: Text.quoted e.1.toList ++ ',' :: ' ' :: ((e.2.map value).getD .null).literal ++ [')']
  '[' :: [',', ' '].intercalate (entries.map pair) ++ [']']

/-- A number of milliseconds as date and time. -/
def momentText (millis : Int) : List Char :=
  match Moment.ofMicros? (millis * 1000) with
  | some m => m.date.chars ++ ' ' :: m.timeChars ++ m.fractionChars
  | none => Text.ofInt millis

/-- The text of a cell of a type. -/
def chars (type : ColumnType) : Cell → List Char
  | .boolean b => (Value.bool b).literal
  | .integer n => if type = .timestamp then momentText n else Text.ofInt n
  | .double x => x.text.toList
  | .decimal d => d.chars
  | .text s => s.toList
  | .binary bytes => bytesText bytes
  | .date d => d.chars
  | .textMap entries => entriesText .text entries
  | .doubleMap entries => entriesText .double entries
  | .json v => v.literal

/-- The text of a cell that may be missing. -/
def shown (type : ColumnType) : Option Cell → String
  | some c => String.ofList (c.chars type)
  | none => Grid.missing

end Cell

/-- The grid that shows an answer. -/
def Sql.Relation.grid (r : Relation) : Grid :=
  { heads := r.columns.map (·.1),
    rows := r.rows.map fun row => (r.columns.zip row).map fun (c, cell) => Cell.shown c.2 cell }

end SchemaOnRead
