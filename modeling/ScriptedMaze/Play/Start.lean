import ScriptedMaze.Maze.Preset
import ScriptedMaze.Play.Table

/-!
# Starting a maze, and stopping a run

What can be done to a game whether or not a run owns it: the maze is started
over or changed, or the run in progress is asked to stop. A new game starts its
maze, too, so that everyone who listens has been shown the whole maze before
anything else happens.
-/

namespace ScriptedMaze

namespace Play

variable {σ : Type}

/-- Gives the player something to read. -/
def report (tell : Listener σ) (text : String) (severity : Severity) : Play σ Unit := do
  modifyGame fun g => { g with status := ⟨text, severity⟩ }
  tell (.status ⟨text, severity⟩)

/-- Shows one row of cells, as wide as the maze is when the row is begun. -/
def drawRow (tell : Listener σ) (y : Nat) : Play σ Unit := do
  let g ← game
  (List.range g.world.grid.width).forM fun x => tell (.cell ⟨x, y⟩)

/-- Shows every cell, and the robot. -/
def drawAll (tell : Listener σ) : Play σ Unit := do
  let g ← game
  (List.range g.world.grid.height).forM (drawRow tell)
  tell (.robot (← game).world.robot)

/-- Starts the maze over. A run that is still under way finds that the game is
no longer its own. -/
def reset (tell : Listener σ) : Play σ Unit := do
  tell (.debug "Resetting maze...")
  modifyGame fun g => {
    g with
    runId := g.runId + 1
    cancelled := false
    running := false
    world := g.maze.opening
    phase := .idle
    steps := 0 }
  drawAll tell
  report tell ("Maze reset (" ++ (← game).maze.name ++ "). Ready for your next attempt.") .plain

/-- Changes to the preset of a given name, and starts it. -/
def setDifficulty (tell : Listener σ) (name : String) : Play σ Unit := do
  match Maze.named name with
  | .error f => throw (.maze f)
  | .ok maze =>
    modifyGame fun g => { g with maze }
    reset tell
    tell (.debug ("Difficulty switched to: " ++ name))

/-- Asks the run in progress to stop before its next move. -/
def cancel : Play σ Unit :=
  modifyGame fun g =>
    if g.running then { g with cancelled := true, running := false, phase := .cancelled }
    else { g with cancelled := true }

end Play

namespace Game

/-- A new game: the maze is started and shown. -/
def new {σ : Type} (tell : Listener σ) (rules : Rules) (maze : Maze) (audience : σ) :
    Except GameFault Unit × Table σ :=
  (Play.reset tell).on ⟨unopened rules maze, audience⟩

end Game

end ScriptedMaze
