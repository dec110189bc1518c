import ScriptedMaze.Maze.Basic
import ScriptedMaze.Text.Lines

/-!
# Maze files

A maze file holds a drawing, one row a line. Cells may be set apart by spaces,
as in `# S . #`: all spaces of a line are dropped, and only spaces, so that a
tabulator inside a row is a character like any other and stands for no cell.

The maze takes its name from the file: the last component of the path, without
its last suffix. A suffix is a dot with something after it; a name that begins
with a dot does not begin with a suffix.
-/

namespace ScriptedMaze

/-- The components of a path that name something. -/
def pathComponents (path : String) : List String :=
  ((Text.pieces '/' path.toList).filter fun p => !p.isEmpty && p ≠ ['.']).map String.ofList

/-- A file's name without its last suffix. -/
def fileStem (path : String) : String :=
  match (pathComponents path).getLast? with
  | none => ""
  | some name =>
    let (back, front) := name.toList.reverse.span (· ≠ '.')
    match back, front with
    | _ :: _, '.' :: _ :: _ => String.ofList (front.drop 1).reverse
    | _, _ => name

namespace Maze

/-- The maze that a file holds. -/
def ofFile (path text : String) (hint : String := "") : Except MazeFault Maze :=
  ofDrawing (fileStem path)
    ((Text.linesOf text).map fun line => String.ofList (line.toList.filter (· ≠ ' '))) hint

end Maze

end ScriptedMaze
