import ScriptedMaze.Maze.Picture
import ScriptedMaze.Play.Start
import ScriptedMaze.Route.Listing

/-!
# What can be asked of a game

None of these changes the game. A player can ask to see the maze, the robot's
position, some advice, and a script that reaches the flag from here.
-/

namespace ScriptedMaze

namespace Game

/-- The maze without the robot. -/
def showMaze (g : Game) : String :=
  "Current maze layout:\n" ++ g.world.grid.picture

/-- Where the robot is, and whether it has the key. -/
def showPosition (g : Game) : String :=
  "Robot position: " ++ g.world.robot.shown ++ "\nHas key: " ++
    (if g.world.hasKey then "Yes" else "No")

/-- Advice for the player. -/
def advice : String :=
  "\n".intercalate [
    "MAZE SOLVING HINTS:",
    "1. Start by moving right to collect the key",
    "2. Navigate through the open paths",
    "3. Use the key to open the door",
    "4. Reach the flag to win!",
    "5. Use loops to make your code shorter",
    "",
    "Try: show_maze() to see the layout",
    "Try: show_position() to see robot status"]

end Game

namespace Play

variable {σ : Type}

/-- A script that reaches the flag from here, if there is one. -/
def solution (tell : Listener σ) : Play σ (Option String) := do
  let g ← game
  match g.world.route? with
  | none => return none
  | some steps =>
    let ds := steps.map (·.direction)
    tell (.debug ("Solution moves: " ++ Route.letters ds))
    return some (Route.script g.rules.limits.bound ds)

end Play

end ScriptedMaze
