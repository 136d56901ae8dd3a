import SchemaOnRead.Failure

/-!
# Grids

Rows of text in a frame of lines, each column as wide as its widest cell. A row may be shorter than
the heads but not longer.
-/

namespace SchemaOnRead

/-- The heads of some columns, and rows of cells. -/
structure Grid where
  heads : List String
  rows : List (List String)
  deriving DecidableEq, Repr

namespace Grid

/-- The widths that columns have when a row is added; none if the row has more cells than there are
columns. -/
def widen : List Nat → List String → Option (List Nat)
  | ws, [] => some ws
  | [], _ :: _ => none
  | w :: ws, s :: ss => (widen ws ss).map (max w s.length :: ·)

/-- The widths of the columns. -/
def widths? (g : Grid) : Option (List Nat) := g.rows.foldlM widen (g.heads.map String.length)

/-- A line between rows. -/
def border (ws : List Nat) : String :=
  String.ofList ('+' :: ws.flatMap fun w => List.replicate (w + 2) '-' ++ ['+'])

/-- A text in a cell of a width. -/
def padded (s : String) (w : Nat) : List Char :=
  ' ' :: s.toList ++ List.replicate (w - s.length) ' ' ++ [' ']

/-- A row between the lines of its cells. -/
def rowLine (ws : List Nat) (cells : List String) : String :=
  String.ofList ('|' :: (cells.zip ws).flatMap fun (s, w) => padded s w ++ ['|'])

/-- The lines of a grid. -/
def lines (g : Grid) : Result (List String) :=
  match g.widths? with
  | some ws =>
    .ok ([border ws, rowLine ws g.heads, border ws] ++ g.rows.map (rowLine ws) ++ [border ws])
  | none => fail (.other .missingItem)

/-- What stands for a missing value. -/
def missing : String := "NULL"

/-- The text of a value in a cell. -/
def valueText : Value → String
  | .null => missing
  | v => v.shown

/-- The line that tells how many rows there are and how many milliseconds they took. -/
def summary (count : Nat) (elapsed : Binary64) : String :=
  s!"{count} rows in {String.ofList (elapsed.fixed 2)} ms"

end Grid

end SchemaOnRead
