import ScriptedMaze.Play.Report
import ScriptedMaze.Script.Depth

/-!
# Runs

A script is played as a **run**: each request for the next step makes one move
and reports it, and between two requests anything may be done to the game. There
are two modes. In *batch* mode the whole script is interpreted before the run
begins; in *live* mode each line is interpreted when the run gets to it, and a
line that is rejected is reported and passed over.

## Who owns the game

A run that has not been asked for a step owns nothing. With its first step it
takes the game, which must not be owned by another run, and gets a number of its
own (`Play.begin`). It ends with a blocked move, at a flag, or when nothing is
left to do, and then gives the game back (`Play.finish`). Before each move it
looks whether the game still carries its number: if not, the maze was started
over or another run has begun, and it ends without a word. If the game is still
its own but has been told to stop, it says so and ends.

A run that fails, or that is given up between two steps, gives the game back as
cancelled (`Play.release`). Only a failure before the run's first line or move
is come to leaves the game taken: what a listener does while a run is being
opened is not under the run's care.

`Run` is a run between two requests. What is left of one that was begun is a
`Replay`: the moves left of the current line and the lines after it. In batch
mode the whole script is one line without a number.
-/

namespace ScriptedMaze

/-- How a script is played. -/
inductive Mode where
  | batch
  | live
deriving DecidableEq, Repr

/-- What is left of a run that was begun. -/
structure Replay where
  mode : Mode
  /-- The number that the game carries as long as the run owns it. -/
  runId : Nat
  /-- The moves made. -/
  index : Nat := 0
  /-- The number of the current line. -/
  line : Option Nat := none
  /-- The moves left of the current line. -/
  moves : List Direction := []
  /-- The lines to come, with their numbers. -/
  lines : List (Nat × String) := []
deriving DecidableEq, Repr

/-- A run between two requests. -/
inductive Run where
  /-- Not begun; the moves to make. -/
  | batch (moves : List Direction)
  /-- Not begun; the script to play line by line. -/
  | live (source : String)
  | suspended (r : Replay)
  | ended
deriving DecidableEq, Repr

/-- The lines of a script for live mode, numbered from one. A carriage return
that is not followed by a line feed ends no line here. -/
def numberedLines (source : String) : List (Nat × String) :=
  ((Text.pieces '\n' (Text.joinLineEndPairs source.toList)).zipIdx 1).map
    fun (line, n) => (n, String.ofList line)

/-- The number of moves that lines ask for. -/
def movesOfLines (limits : Script.Limits) : List (Nat × String) → Nat
  | [] => 0
  | (_, line) :: rest =>
    match Script.lineCommands limits line with
    | .ok ds => ds.length + movesOfLines limits rest
    | .error _ => movesOfLines limits rest

/-- The moves that are left of a run, if nothing ends it before. -/
def Run.movesLeft (limits : Script.Limits) : Run → Nat
  | batch moves => moves.length
  | live source => movesOfLines limits (numberedLines source)
  | suspended r => r.moves.length + movesOfLines limits r.lines
  | ended => 0

namespace Play

variable {σ : Type}

/-! ### Taking the game and giving it back -/

/-- Whether the game no longer carries a run's number. -/
def stale (runId : Nat) : Play σ Bool := do
  return (← game).runId ≠ runId

/-- Takes the game for a new run and gives its number; there is none where the
flag has been reached. -/
def begin (tell : Listener σ) : Play σ (Option Nat) := do
  let g ← game
  if g.running then throw .busy
  if g.world.finished then
    report tell "Flag already captured. Reset to play again." .info
    return none
  modifyGame fun g =>
    { g with runId := g.runId + 1, cancelled := false, running := true, phase := .running }
  return some (g.runId + 1)

/-- Gives the game back, if it still carries the run's number. -/
def finish (runId : Nat) (phase : Phase) : Play σ Unit :=
  modifyGame fun g => if g.runId = runId then { g with running := false, phase } else g

/-- Gives the game back as cancelled, if the run still owns it. -/
def release (runId : Nat) : Play σ Unit :=
  modifyGame fun g =>
    if g.runId = runId ∧ g.running then { g with running := false, phase := .cancelled } else g

/-- Ends a run that was told to stop. -/
def stop (tell : Listener σ) (r : Replay) : Play σ Unit := do
  finish r.runId .cancelled
  report tell (match r.mode with
    | .live => "Live mode stopped."
    | .batch => "Execution stopped.") .info

/-- Ends a run that has nothing left to do. -/
def complete (tell : Listener σ) (r : Replay) : Play σ Unit := do
  if ← stale r.runId then return
  if (← game).cancelled then stop tell r
  else
    finish r.runId .completed
    match r.mode with
    | .live => report tell "Live mode finished." .success
    | .batch => report tell "Execution finished. Adjust code if needed." .info

/-! ### Steps -/

/-- The next move of a line. -/
def advance (tell : Listener σ) (r : Replay) (d : Direction) (rest : List Direction) :
    Play σ (Option Report × Run) := do
  if ← stale r.runId then return (none, .ended)
  if (← game).cancelled then
    stop tell r
    return (none, .ended)
  let index := r.index + 1
  let res := { ← perform tell (.toward d) with index, line := r.line }
  if res.verdict = .blocked then
    finish r.runId .blocked
    match r.mode, r.line with
    | .live, some line =>
      report tell ("Blocked on line " ++ toString line ++ " (" ++ d.name ++ ")") .error
    | _, _ =>
      report tell ("Invalid move '" ++ d.name ++ "' at step " ++ toString index ++ ".") .error
    return (some res, .ended)
  else if res.finished then
    finish r.runId .finished
    return (some res, .ended)
  else return (some res, .suspended { r with index, moves := rest })

/-- Interprets a line when the run gets to it. A line that is rejected is passed
over: the answer is `none`. -/
def readLine (tell : Listener σ) (n : Nat) (line : String) :
    Play σ (Option (List Direction)) := do
  match Script.lineCommands (← game).rules.limits line with
  | .error f =>
    report tell ("Live loop rejected on line " ++ toString n ++ ": " ++ f.summary) .error
    tell (.debug ("Line " ++ toString n ++ " rejected: " ++ f.message))
    return none
  | .ok ds =>
    if !ds.isEmpty then report tell ("Line " ++ toString n ++ ": " ++ Text.trimmed line) .info
    else if !Text.blank line then
      tell (.debug ("Ignored line (no command): " ++ Text.trimmed line))
    return some ds

/-- Goes on with the lines to come, to the first that asks for a move. -/
def nextLine (tell : Listener σ) (r : Replay) :
    List (Nat × String) → Play σ (Option Report × Run)
  | [] => do
    complete tell r
    return (none, .ended)
  | (n, line) :: lines => do
    if (← game).cancelled then
      complete tell r
      return (none, .ended)
    match ← readLine tell n line with
    | none => nextLine tell r lines
    | some [] =>
      if ← stale r.runId then return (none, .ended)
      nextLine tell r lines
    | some (d :: rest) => advance tell { r with line := some n, lines } d rest

/-- The next step of a run that was begun. -/
def resume (tell : Listener σ) (r : Replay) : Play σ (Option Report × Run) := do
  match r.moves with
  | d :: rest => advance tell r d rest
  | [] =>
    if ← stale r.runId then return (none, .ended)
    nextLine tell r r.lines

/-- Does something for a run, and gives the game back if it fails. -/
def guarded {α : Type} (runId : Nat) (act : Play σ α) : Play σ α :=
  tryCatch act fun f => do
    release runId
    throw f

/-- Warns the developer of a first move that will be blocked. -/
def precheck (tell : Listener σ) : List Direction → Play σ Unit
  | [] => return
  | d :: _ => do
    let w := (← game).world
    if w.blocked (w.target d) then
      tell (.debug ("Pre-run check: First move '" ++ d.name ++
        "' is blocked (wall / door w/o key / boundary)."))
      tell (.debug "Tip: Use show_maze() to inspect the grid.")

/-- The next step of a run, and what is left of the run. A run that fails has
ended. -/
def next (tell : Listener σ) : Run → Play σ (Option Report × Run)
  | .ended => return (none, .ended)
  | .suspended r => guarded r.runId (resume tell r)
  | .batch moves => do
    match ← begin tell with
    | none => return (none, .ended)
    | some runId =>
      precheck tell moves
      report tell "Executing robot commands..." .info
      tell (.debug ("Executing " ++ toString moves.length ++ " moves"))
      guarded runId (resume tell { mode := .batch, runId, moves })
  | .live source => do
    match ← begin tell with
    | none => return (none, .ended)
    | some runId =>
      report tell "Live mode: executing lines..." .info
      let lines := numberedLines source
      guarded runId (nextLine tell { mode := .live, runId, lines } lines)

/-- Gives up a run. One that was not begun leaves no trace. -/
def close : Run → Play σ Unit
  | .suspended r => release r.runId
  | _ => return

/-! ### Opening a run -/

/-- Says that a script is being read. -/
def announceReading (tell : Listener σ) : Play σ Unit := do
  if (← game).running then throw .busy
  report tell "Parsing code..." .info

/-- A run of a script in batch mode. -/
def openBatch (tell : Listener σ) (source : String) : Play σ Run := do
  announceReading tell
  match Script.commands (← game).rules.limits source with
  | .error f =>
    report tell ("Code error: " ++ f.message) .error
    throw (.script f)
  | .ok ds =>
    tell (.debug ("Parsed command sequence: " ++ Script.describe ds))
    return .batch ds

/-- A run of a script in batch mode, if the reading of the script comes to its end.
One that breaks off gets as far as the announcement. -/
def openBatch? (tell : Listener σ) (source : String) : Play σ (Option Run) := do
  match Script.commands? (← game).rules.limits source with
  | some _ => return some (← openBatch tell source)
  | none =>
    announceReading tell
    return none

/-- A run of a script in live mode. -/
def openLive (tell : Listener σ) (source : String) : Play σ Run := do
  if (← game).running then throw .busy
  if Text.blank source then
    report tell ("Code error: " ++ Script.Fault.emptyProgram.message) .error
    throw (.script .emptyProgram)
  return .live source

end Play

end ScriptedMaze
