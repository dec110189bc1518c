import ScriptedMaze.Maze.World

/-!
# Pictures

A grid as plain text, one row a line, cells set apart by a separator.

The robot's symbol takes the place of the cell it stands on; a robot outside the
grid is not drawn. Which symbol stands for what is a `Symbols`; the usual ones
are `Cell.symbol`, and `@` for the robot. They look like the codes of a drawing,
but the two tables have nothing to do with each other.
-/

namespace ScriptedMaze

/-- The symbol that a cell usually has in a picture. -/
def Cell.symbol : Cell → String
  | wall => "#"
  | floor => "."
  | start => "S"
  | flag => "F"
  | key => "K"
  | door => "D"

/-- What is drawn for each cell, and for the robot. -/
structure Symbols where
  cell : Cell → String := Cell.symbol
  robot : String := "@"

namespace Symbols

/-- The name under which the symbol of a cell can be replaced. -/
def nameOf : Cell → String
  | .wall => "wall"
  | .floor => "open"
  | .start => "start"
  | .flag => "flag"
  | .key => "key"
  | .door => "door"

/-- Replaces the symbol of a given name; a name of nothing replaces nothing. -/
def replace (s : Symbols) (name symbol : String) : Symbols :=
  if name = "robot" then { s with robot := symbol }
  else { s with cell := fun k => if nameOf k = name then symbol else s.cell k }

end Symbols

namespace Grid

/-- The symbols of row `y`, the robot's among them if it stands there. -/
def rowSymbols (s : Symbols) (robot : Option Point) (y : Nat) (row : List Cell) : List String :=
  row.zipIdx.map fun (k, x) => if robot = some ⟨x, y⟩ then s.robot else s.cell k

/-- The grid as text. -/
def picture (g : Grid) (robot : Option Point := none) (sep : String := " ")
    (s : Symbols := {}) : String :=
  "\n".intercalate (g.rows.zipIdx.map fun (row, y) => sep.intercalate (rowSymbols s robot y row))

end Grid

namespace World

/-- The grid as text, with the robot. -/
def picture (w : World) : String := w.grid.picture (some w.robot)

end World

end ScriptedMaze
