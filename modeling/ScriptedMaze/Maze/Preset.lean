import ScriptedMaze.Maze.Basic

/-!
# The three mazes that come with the game

Each preset is drawn here and read like any other drawing; that the drawings are
sound is checked once, when this file is compiled (`Preset.ofDrawing_isOk`).
-/

namespace ScriptedMaze

/-- The presets, by difficulty. -/
inductive Preset where
  | easy
  | medium
  | hard
deriving DecidableEq, Repr

namespace Preset

/-- The presets, the easiest first. -/
def all : List Preset := [easy, medium, hard]

/-- The name by which a preset is chosen. -/
def name : Preset → String
  | easy => "easy"
  | medium => "medium"
  | hard => "hard"

/-- The drawing of a preset. -/
def rows : Preset → List String
  | easy => [
    "#####",
    "#S.K#",
    "#.D.#",
    "#.F.#",
    "#####"]
  | medium => [
    "#######",
    "#S..K##",
    "###.###",
    "#D....#",
    "#.###.#",
    "#..F#.#",
    "#######"]
  | hard => [
    "##########",
    "#S..#.K..#",
    "#.#.#.##.#",
    "#.#....#.#",
    "#.####.#.#",
    "#.D.##.#.#",
    "#......#.#",
    "#####.##.#",
    "#.......F#",
    "##########"]

/-- What the player is told about a preset. -/
def hint : Preset → String
  | easy => "Easy: Get key (2 rights), left, down to door, open, down to flag."
  | medium => "Medium: key -> door -> flag (optimal around 12 moves)."
  | hard =>
    "Hard: Reach the key, come back to the shaft, then wind around to the bottom-right flag."

/-- The drawing of every preset draws a maze. -/
theorem ofDrawing_isOk (p : Preset) :
    (Maze.ofDrawing p.name p.rows p.hint).toOption.isSome = true := by
  cases p <;> decide +kernel

/-- A preset as a maze. -/
def maze (p : Preset) : Maze :=
  (Maze.ofDrawing p.name p.rows p.hint).toOption.get p.ofDrawing_isOk

/-- The preset with a given name. -/
def ofName? (s : String) : Option Preset :=
  all.find? (·.name = s)

end Preset

namespace Maze

/-- The preset maze of a given name. -/
def named (s : String) : Except MazeFault Maze :=
  match Preset.ofName? s with
  | some p => .ok p.maze
  | none => .error (.unknownPreset (Text.quoted s))

end Maze

end ScriptedMaze
