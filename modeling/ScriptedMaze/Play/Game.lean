import ScriptedMaze.Maze.World
import ScriptedMaze.Script.Commands

/-!
# Games

A **game** is a maze, the world it has come to, and what is known about the run
in progress, if there is one. Everything that happens to it can be heard: a
cell that may look different, the point at which the robot is shown, a status
for the player, and a line for the developer are **notices**.

An operation on a game can fail, for one of the reasons of `GameFault`.
-/

namespace ScriptedMaze

/-- How a status is meant. -/
inductive Severity where
  | plain
  | info
  | success
  | error
deriving DecidableEq, Repr

/-- The name of a severity, which is empty for a plain status. -/
def Severity.name : Severity → String
  | plain => ""
  | info => "info"
  | success => "success"
  | error => "error"

/-- What the player reads. -/
structure Status where
  text : String := ""
  severity : Severity := .plain
deriving DecidableEq, Repr

/-- What became of the latest run. -/
inductive Phase where
  | idle
  | running
  | finished
  | blocked
  | completed
  | cancelled
deriving DecidableEq, Repr

/-- The name of a phase. -/
def Phase.name : Phase → String
  | idle => "idle"
  | running => "running"
  | finished => "finished"
  | blocked => "blocked"
  | completed => "completed"
  | cancelled => "cancelled"

/-- What is agreed before a game. -/
structure Rules where
  limits : Script.Limits := {}
  /-- What the player is shown at the flag. -/
  flagText : String := "cbc\x7brobot_maze_master_2024\x7d"
deriving DecidableEq, Repr

/-- A maze being played. -/
structure Game where
  rules : Rules
  maze : Maze
  world : World
  /-- Whether a run owns the game. -/
  running : Bool := false
  /-- Whether the run has been asked to stop. -/
  cancelled : Bool := false
  /-- Changes with every run and every new start, so that a run can tell whether
  the game is still its own. -/
  runId : Nat := 0
  phase : Phase := .idle
  /-- The moves made since the last start, the blocked ones included. -/
  steps : Nat := 0
  status : Status := {}
deriving DecidableEq

/-- What a listener is told. -/
inductive Notice where
  /-- A cell may look different. -/
  | cell (p : Point)
  /-- The robot is shown at a point. -/
  | robot (p : Point)
  /-- There is something for the player to read. -/
  | status (s : Status)
  /-- There is something for the developer to read. -/
  | debug (text : String)
  /-- Nothing happens for some seconds. -/
  | pause (seconds : Float)

/-- Why an operation on a game fails. -/
inductive GameFault where
  /-- Another run owns the game. -/
  | busy
  /-- The script was rejected. -/
  | script (f : Script.Fault)
  /-- There is no such maze. -/
  | maze (f : MazeFault)
deriving DecidableEq, Repr

namespace GameFault

/-- What a player reads. -/
def message : GameFault → String
  | busy => "A run is already in progress."
  | script f => f.message
  | maze f => f.message

end GameFault

namespace Game

/-- A game that nobody has been told of yet. -/
def unopened (rules : Rules) (maze : Maze) : Game :=
  { rules, maze, world := maze.opening }

end Game

end ScriptedMaze
