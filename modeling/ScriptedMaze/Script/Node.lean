import ScriptedMaze.Maze.Point

/-!
# Scripts as trees

A script asks for moves and repeats them in loops:

    for (let i = 0; i < 3; i++) { moveRight(); moveDown(); }

Its tree (`List Node`) has a leaf for every move and an inner node for every
loop, with the line on which each begins.
-/

namespace ScriptedMaze.Script

/-- A move or a loop, and the line on which it begins. -/
inductive Node where
  | move (d : Direction) (line : Nat)
  | loop (count : Nat) (body : List Node) (braced : Bool) (line : Nat)

end ScriptedMaze.Script
