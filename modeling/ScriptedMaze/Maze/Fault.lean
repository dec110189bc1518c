import ScriptedMaze.Text.Quoted

/-!
# What can be wrong with a maze

A drawing can fail to be a grid, a grid can fail to have one start, and a name
can fail to be that of a preset. `MazeFault` lists the causes, and
`MazeFault.message` is what a player reads.
-/

namespace ScriptedMaze

/-- Why there is no maze. -/
inductive MazeFault where
  /-- The drawing has no row that is not blank. -/
  | empty
  /-- A row is not as wide as the first one. -/
  | ragged
  /-- A character stands for no cell; its column and row. -/
  | unknownCode (code : Char) (x y : Nat)
  /-- There is more than one start. -/
  | secondStart
  /-- There is no start. -/
  | noStart
  /-- No preset has this name, which is given as messages show it. -/
  | unknownPreset (shown : String)
deriving DecidableEq, Repr

namespace MazeFault

/-- What a player reads. -/
def message : MazeFault → String
  | empty => "Maze is empty."
  | ragged => "All maze rows must be the same width."
  | unknownCode code x y =>
    "Unknown cell code " ++ Text.quoted (String.singleton code) ++ " at (" ++ toString x ++ ", " ++
      toString y ++ ")."
  | secondStart => "Maze must contain exactly one 'S'."
  | noStart => "Maze must contain one 'S' (start)."
  | unknownPreset shown => "Unknown difficulty " ++ shown ++ "; choose from easy, medium, hard"

end MazeFault

end ScriptedMaze
