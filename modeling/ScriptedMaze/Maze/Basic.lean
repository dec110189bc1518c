import ScriptedMaze.Maze.Drawing

/-!
# Mazes

A **maze** has a name, a hint for the player, a grid, and the point at which the
robot starts. `Maze.ofDrawing` reads the grid from a drawing and takes the one
start that is drawn in it.

A **blueprint** is a maze on paper: its rows are text that nobody has read yet,
and its start is whatever it says. `Blueprint.build` reads it; the start of a
blueprint need not be drawn, and need not even lie in the grid. The blueprint of
a maze is drawn in the codes of its cells.
-/

namespace ScriptedMaze

/-- A maze that can be played. -/
structure Maze where
  name : String
  hint : String := ""
  grid : Grid
  start : Point
deriving DecidableEq

/-- A maze as it is written down. -/
structure Blueprint where
  name : String
  template : List String
  start : Point
  hint : String := ""
deriving DecidableEq, Repr

namespace Maze

/-- The maze that a drawing draws, starting at the start drawn in it. -/
def ofDrawing (name : String) (rows : List String) (hint : String := "") :
    Except MazeFault Maze := do
  let grid ← Grid.ofDrawing rows
  let start ← grid.start
  return { name, hint, grid, start }

/-- The maze as it is written down, one character a cell. -/
def blueprint (m : Maze) : Blueprint :=
  { name := m.name, template := m.grid.codes, start := m.start, hint := m.hint }

end Maze

namespace Blueprint

/-- The length of the first row, if there is one. -/
def width? (b : Blueprint) : Option Nat := b.template.head?.map String.length

/-- The number of rows. -/
def height (b : Blueprint) : Nat := b.template.length

/-- The grid that is drawn. -/
def grid (b : Blueprint) : Except MazeFault Grid := Grid.ofDrawing b.template

/-- The maze that is written down. -/
def build (b : Blueprint) : Except MazeFault Maze := do
  let grid ← b.grid
  return { name := b.name, hint := b.hint, grid, start := b.start }

end Blueprint

end ScriptedMaze
