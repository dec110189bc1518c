import ScriptedMaze.Decimal.Reading
import ScriptedMaze.Maze.Preset
import ScriptedMaze.Play.Game

/-!
# Settings

Seven settings can be given from outside, each under a name: the three limits of
scripts, the waits after a step in both modes, the maze to begin with, and what
is shown at the flag. A number that is missing or blank has its usual value. The
settings are read in a fixed order, and the first number that cannot be read is
reported.
-/

namespace ScriptedMaze

/-- What can be set from outside. -/
structure Settings where
  rules : Rules := {}
  /-- The seconds after a step in batch mode. -/
  batchPause : Float := 0.4
  /-- The seconds after a step in live mode. -/
  livePause : Float := 0.3
  /-- The name of the maze to begin with. -/
  difficulty : String := "medium"

/-- A setting that cannot be read. -/
inductive SettingFault where
  | noInteger (name raw : String)
  | noNumber (name raw : String)
deriving DecidableEq, Repr

namespace SettingFault

/-- What whoever started the program reads. -/
def message : SettingFault → String
  | noInteger name raw => "ROBOT_MAZE_" ++ name ++ " must be an integer, got " ++ Text.quoted raw
  | noNumber name raw => "ROBOT_MAZE_" ++ name ++ " must be a number, got " ++ Text.quoted raw

end SettingFault

namespace Settings

/-- What is set from outside, by name. -/
abbrev Environment := String → Option String

/-- A setting that is a whole number. -/
def integer (env : Environment) (name : String) (usual : Int) : Except SettingFault Int :=
  match env name with
  | none => .ok usual
  | some raw =>
    if Text.blank raw then .ok usual
    else
      match Decimal.readInt? raw with
      | some n => .ok n
      | none => .error (.noInteger name raw)

/-- A setting that is a floating-point number. -/
def number (env : Environment) (name : String) (usual : Float) : Except SettingFault Float :=
  match env name with
  | none => .ok usual
  | some raw =>
    if Text.blank raw then .ok usual
    else
      match Decimal.readFloat? raw with
      | some x => .ok x
      | none => .error (.noNumber name raw)

/-- The settings that an environment makes. -/
def ofEnvironment (env : Environment) : Except SettingFault Settings := do
  let usual : Settings := {}
  let limits := usual.rules.limits
  let bound ← integer env "MAX_LOOP_BOUND" limits.bound
  let expansions ← integer env "MAX_EXPANSIONS" limits.expansions
  let moves ← integer env "MOVE_LIMIT" limits.moves
  let batchPause ← number env "RUN_STEP_DELAY" usual.batchPause
  let livePause ← number env "LIVE_STEP_DELAY" usual.livePause
  return {
    rules := {
      limits := { bound, expansions, moves }
      flagText := (env "FLAG").getD usual.rules.flagText }
    batchPause, livePause
    difficulty := (env "DEFAULT_DIFFICULTY").getD usual.difficulty }

/-- The preset maze of a given name; where there is no name or an empty one, the
maze to begin with. -/
def presetOr (s : Settings) (name : Option String) : Except MazeFault Maze :=
  Maze.named ((name.filter (!·.isEmpty)).getD s.difficulty)

end Settings

end ScriptedMaze
