import ScriptedMaze.Maze.Basic

/-!
# Worlds and moves

A **world** is a maze in play: the grid as it is now, the point at which the
robot stands, whether it holds a key, and whether it has reached a flag.

A move has two parts. The robot goes to the neighbouring point unless that is
blocked (`World.attempt`): outside the grid, a wall, or a door without a key.
Then the cell it stands on takes effect (`World.enter`): a key is picked up and
leaves a floor, a door is opened and becomes a floor, a flag ends the game, and
nothing else happens. One key opens all doors. `World.move` is the two together.

A finished world moves like any other; nothing here makes it unfinished.
-/

namespace ScriptedMaze

/-- A maze in play. -/
structure World where
  grid : Grid
  robot : Point
  hasKey : Bool := false
  finished : Bool := false
deriving DecidableEq, Hashable

/-- What the cell that was entered did. -/
inductive Effect where
  | none
  | keyCollected
  | doorOpened
  | flagReached
deriving DecidableEq, Repr

/-- What became of a move. -/
inductive Outcome where
  | blocked
  | moved (effect : Effect)
deriving DecidableEq, Repr

/-- A maze before the first move. -/
def Maze.opening (m : Maze) : World :=
  { grid := m.grid, robot := m.start }

namespace World

/-- Whether the robot cannot go to a point. -/
def blocked (w : World) (p : Point) : Bool :=
  if w.grid.contains p then
    match w.grid.cell? p with
    | some .wall => true
    | some .door => !w.hasKey
    | _ => false
  else true

/-- The point to which a direction leads. -/
def target (w : World) (d : Direction) : Point := w.robot.toward d

/-- Goes one point on, if that is not blocked; the cell there has no effect
yet. -/
def attempt (w : World) (d : Direction) : Option World :=
  if w.blocked (w.target d) then none else some { w with robot := w.target d }

/-- The world with the cell that a point addresses replaced. -/
def set? (w : World) (p : Point) (k : Cell) : Option World :=
  (w.grid.set? p k).map fun grid => { w with grid }

/-- What the cell that a point addresses does to the world; `none` where the
point addresses no cell. -/
def enter (w : World) (p : Point) : Option (World × Effect) :=
  match w.grid.cell? p with
  | none => none
  | some .key => (w.set? p .floor).map fun w' => ({ w' with hasKey := true }, .keyCollected)
  | some .door =>
    if w.hasKey then (w.set? p .floor).map fun w' => (w', .doorOpened) else some (w, .none)
  | some .flag => some ({ w with finished := true }, .flagReached)
  | some _ => some (w, .none)

/-- A move: one point on, and the effect of the cell there. A blocked move
leaves the world as it was. -/
def move (w : World) (d : Direction) : World × Outcome :=
  match w.attempt d with
  | none => (w, .blocked)
  | some w' =>
    match w'.enter w'.robot with
    | some (after, effect) => (after, .moved effect)
    | none => (w', .moved .none)

/-- The moves of a list, one after the other. -/
def moves (w : World) (ds : List Direction) : World :=
  ds.foldl (fun w d => (w.move d).1) w

/-- A blocked move leaves the world as it was. -/
theorem move_of_blocked {w : World} {d : Direction} (h : w.blocked (w.target d) = true) :
    w.move d = (w, .blocked) := by
  simp [move, attempt, h]

end World

end ScriptedMaze
