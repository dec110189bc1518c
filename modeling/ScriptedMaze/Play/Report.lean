import ScriptedMaze.Maze.Picture
import ScriptedMaze.Play.Start

/-!
# Single moves

A move is asked for by an `Action`: a direction, or words such as `up`,
`moveUp();` or `Action: up`. Whatever becomes of it is told in a `Report`: the
verdict, the events in order, and how the game stands after everything that
listeners did on the way.

A move that cannot be understood, and a move after the flag was reached, are
reported and change nothing.
-/

namespace ScriptedMaze

/-- How a move is asked for. -/
inductive Action where
  | toward (d : Direction)
  | words (text : String)
  /-- Something that is no text; how a report shows it. -/
  | unreadable (shown : String)
deriving DecidableEq, Repr

namespace Action

/-- What the action is called in a report if it cannot be understood. -/
def shown : Action → String
  | toward d => d.name
  | words text => text
  | unreadable text => text

/-- The words that ask for the move: what follows the first colon, or all of
them, without blanks around. -/
def spokenPart (text : String) : List Char :=
  let cs := Text.trim text.toList
  if ':' ∈ cs then Text.trim ((cs.dropWhile (· ≠ ':')).drop 1) else cs

/-- A text without the semicolons at its end. -/
def dropSemicolons (cs : List Char) : List Char :=
  (cs.reverse.dropWhile (· = ';')).reverse

/-- The direction that is asked for: by its call, after which semicolons may
stand, or by its name in letters of either case. -/
def direction? : Action → Option Direction
  | toward d => some d
  | words text =>
    let cs := spokenPart text
    match Direction.ofCall? (String.ofList (dropSemicolons cs)) with
    | some d => some d
    | none => Direction.ofName? (String.ofList (cs.map Char.toLower))
  | unreadable _ => none

end Action

/-- What became of an action. -/
inductive Verdict where
  | invalidAction
  | gameOver
  | blocked
  | moved (effect : Effect)
deriving DecidableEq, Repr

namespace Verdict

/-- Whether a move was tried. -/
def ok : Verdict → Bool
  | invalidAction => false
  | gameOver => false
  | blocked => true
  | moved _ => true

/-- Why no move was tried. -/
def reason? : Verdict → Option String
  | invalidAction => some "invalid_action"
  | gameOver => some "game_over"
  | _ => none

/-- What the cell that was entered did. -/
def effect : Verdict → Effect
  | moved e => e
  | _ => .none

end Verdict

/-- Something that happened to the world. -/
inductive Event where
  | move (d : Direction) (origin target : Point)
  | blocked (d : Direction) (place target : Point)
  | key (place : Point)
  | door (place : Point)
  | flag (place : Point)
deriving DecidableEq, Repr

/-- What became of an action, and how the game stands. -/
structure Report where
  action : String
  verdict : Verdict
  robot : Point
  hasKey : Bool
  finished : Bool
  picture : String
  /-- The number of the move in its run. -/
  index : Nat := 0
  /-- The line of the script that asked for the move, where a script is run line
  by line. -/
  line : Option Nat := none
  events : List Event := []
deriving DecidableEq, Repr

namespace Play

variable {σ : Type}

/-- A report on the game as it stands. -/
def conclude (action : String) (verdict : Verdict) (events : List Event := []) :
    Play σ Report := do
  let w := (← game).world
  return {
    action, verdict, events
    robot := w.robot
    hasKey := w.hasKey
    finished := w.finished
    picture := w.picture }

/-- Tells what a cell that was entered did, and gives the event. -/
def announce (tell : Listener σ) (p : Point) : Effect → Play σ (List Event)
  | .none => return []
  | .keyCollected => do
    tell (.cell p)
    report tell "Key collected! Door can now be opened." .info
    tell (.debug "Key collected.")
    return [.key p]
  | .doorOpened => do
    tell (.cell p)
    report tell "Door opened!" .info
    tell (.debug "Door opened.")
    return [.door p]
  | .flagReached => do
    let flag := (← game).rules.flagText
    report tell ("Flag captured! Flag: " ++ flag) .success
    tell (.debug ("FLAG: " ++ flag))
    return [.flag p]

/-- Makes a move in a game that is not over. -/
def makeMove (tell : Listener σ) (d : Direction) : Play σ Report := do
  let before := (← game).world
  let (after, outcome) := before.move d
  modifyGame fun g => { g with steps := g.steps + 1 }
  match outcome with
  | .blocked =>
    tell (.debug "Move blocked.")
    conclude d.name .blocked [.blocked d before.robot (before.target d)]
  | .moved effect =>
    modifyGame fun g => { g with world := after }
    tell (.cell before.robot)
    let events ← announce tell after.robot effect
    tell (.robot after.robot)
    conclude d.name (.moved effect) (.move d before.robot after.robot :: events)

/-- Does what an action asks for, whether or not a run owns the game. -/
def perform (tell : Listener σ) (a : Action) : Play σ Report := do
  match a.direction? with
  | none => conclude a.shown .invalidAction
  | some d =>
    if (← game).world.finished then conclude d.name .gameOver
    else makeMove tell d

/-- Does what an action asks for, outside of a run. -/
def step (tell : Listener σ) (a : Action) : Play σ Report := do
  if (← game).running then throw .busy
  perform tell a

end Play

end ScriptedMaze
