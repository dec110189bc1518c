import ScriptedMaze.Play.Console
import ScriptedMaze.Play.Pace
import ScriptedMaze.Play.Written
import ScriptedMaze.Settings
import ScriptedMaze.Terminal.Arguments
import ScriptedMaze.Terminal.Disk

/-!
# The command lines

There are three tools. One plays a script in a maze and prints each step, one
solves a maze and prints a script, and one prints a preset maze.

What a tool does is a **transcript**: what it prints and where it pauses, in
order, and how it ends. A tool may end because the command line makes no sense
or asks for help; what is printed then is not part of the transcript. It may
also break off over a file or a maze.
-/

namespace ScriptedMaze.Terminal

/-- The tools. -/
inductive Tool where
  | play
  | solve
  | draw
deriving DecidableEq, Repr

namespace Tool

/-- The names by which the tools are called. -/
def name : Tool → String
  | play => "robot-maze"
  | solve => "robot-maze-solve"
  | draw => "text-export"

/-- The tool of a given name. -/
def ofName? (s : String) : Option Tool :=
  [play, solve, draw].find? (·.name = s)

end Tool

/-- What can be seen of a tool at work. -/
inductive Output where
  | out (text : String)
  | err (text : String)
  | pause (seconds : Float)

/-- What a tool breaks off over. -/
inductive Crash where
  | file (f : FileFault)
  | maze (f : MazeFault)
  | game (f : GameFault)
  /-- A wait is due that cannot be made: nobody has said how long it is, or it is too
  long for the host. -/
  | wait
  /-- The script goes too deep to be read. -/
  | depth
deriving DecidableEq, Repr

/-- How a tool ends. -/
inductive Ending where
  | exit (code : Nat)
  /-- The command line makes no sense, or asks for help. -/
  | stopped (s : Stop)
  | crashed (c : Crash)
deriving DecidableEq, Repr

/-- What a tool does. -/
structure Transcript where
  outputs : List Output := []
  ending : Ending

namespace Transcript

/-- What is printed, without the messages about what went wrong. -/
def out (t : Transcript) : String :=
  String.join (t.outputs.map fun | .out text => text | _ => "")

/-- The messages about what went wrong. -/
def err (t : Transcript) : String :=
  String.join (t.outputs.map fun | .err text => text | _ => "")

/-- The seconds of the pauses. -/
def pauses (t : Transcript) : List Float :=
  t.outputs.filterMap fun | .pause seconds => some seconds | _ => none

/-- A transcript of a tool that did nothing. -/
def brokenOff (c : Crash) : Transcript := { ending := .crashed c }

end Transcript

/-- A line that is printed. -/
def line (text : String) : Output := .out (text ++ "\n")

/-! ### Playing a script -/

/-- Prints what the player is to read, and pauses. The outputs are kept with the
latest first. -/
def narrate : Listener (List Output)
  | .status s =>
    let severity := if s.severity.name.isEmpty then "status" else s.severity.name
    Play.modifyAudience (line ("# [" ++ severity ++ "] " ++ s.text) :: ·)
  | .pause seconds => Play.modifyAudience (.pause seconds :: ·)
  | _ => return

/-- What is printed after a step. -/
def stepLines (r : Report) : List Output :=
  let place :=
    match r.line with
    | some n => " line " ++ toString n
    | none => ""
  let effect := r.verdict.effect
  [line ("\n=== " ++ toString r.index ++ ". " ++ r.action ++ place ++ " ==="), line r.picture] ++
    if effect = .none then [] else [line ("# effect: " ++ effect.name)]

/-- What is printed at the end. -/
def summaryLines (g : Game) : List Output := [
  line "\n# summary:",
  line (Json.indented (.object [
    ("pos", g.world.robot.toJson), ("has_key", .truth g.world.hasKey),
    ("finished", .truth g.world.finished), ("run_status", .text g.phase.name),
    ("steps", .nat g.steps)]))]

/-- The script that is to be played: the standard input, or a file. -/
def readScript (disk : Disk) (input path : String) : Except Crash String :=
  if path = "-" then .ok (String.ofList (Text.unifyLineEnds input.toList))
  else (disk.readText path).mapError .file

/-- The maze in a file. -/
def readMaze (disk : Disk) (path : String) : Except Crash Maze := do
  let text ← (disk.readText (Disk.cleanPath path)).mapError .file
  (Maze.ofFile path text).mapError .maze

/-- The maze that is to be played: that of a file, or a preset. -/
def chooseMaze (settings : Settings) (disk : Disk) (a : Arguments) : Except Crash Maze :=
  match a.maze.filter (!·.isEmpty) with
  | some path => readMaze disk path
  | none => (settings.presetOr a.difficulty).mapError .maze

/-- Prints a step. -/
def showStep (r : Report) : Play (List Output) Unit :=
  Play.modifyAudience ((stepLines r).reverse ++ ·)

/-- Makes the steps of a run, with the waits that belong to them; what breaks them
off, if anything does. Where the wait cannot be made, the first step is made, and no
other. -/
def playRun (settings : Settings) (host : Host) (a : Arguments) (run : Run) :
    Play (List Output) (Option Crash) := do
  let usual := if a.live then settings.livePause else settings.batchPause
  match (a.delay.getD (.seconds usual)).seconds? host with
  | some x =>
    let _ ← Play.drain narrate (PacedRun.slowed ⟨run, []⟩ x) showStep
    return none
  | none =>
    let steps ← Play.take narrate showStep 1 ⟨run, []⟩
    return if steps.isEmpty then none else some .wait

/-- Plays a script in a game, and prints; what it breaks off over, if it does. -/
def playScript (settings : Settings) (host : Host) (a : Arguments) (source : String) :
    Play (List Output) (Option Crash) := do
  if a.live then
    playRun settings host a (← Play.openLive narrate source)
  else
    match ← Play.openBatch? narrate source with
    | some run => playRun settings host a run
    | none => return some .depth

/-- The tool that plays a script. -/
def playTool (settings : Settings) (host : Host) (disk : Disk) (input subject : String)
    (a : Arguments) : Transcript :=
  let prepared : Except Crash (String × Maze) := do
    let source ← readScript disk input subject
    return (source, ← chooseMaze settings disk a)
  match prepared with
  | .error c => .brokenOff c
  | .ok (source, maze) =>
    let (_, table) := Game.new narrate settings.rules maze []
    match (playScript settings host a source).on table with
    | (.ok none, t) =>
      { outputs := t.audience.reverse ++ summaryLines t.game
        ending := .exit (if t.game.world.finished then 0 else 1) }
    | (.ok (some c), t) => { outputs := t.audience.reverse, ending := .crashed c }
    | (.error (.script f), t) =>
      { outputs := t.audience.reverse ++ [.err (f.kind.name ++ ": " ++ f.message ++ "\n")]
        ending := .exit 2 }
    | (.error f, t) => { outputs := t.audience.reverse, ending := .crashed (.game f) }

/-! ### Solving a maze -/

/-- A number with blanks in front, three places wide. -/
def padded (n : Nat) : String :=
  let ds := toString n
  String.ofList (List.replicate (3 - ds.length) ' ') ++ ds

/-- What is printed of a route. -/
def routeLines (bound : Int) (steps : List Route.Step) : List Output :=
  let ds := steps.map (·.direction)
  line ("Solution in " ++ toString steps.length ++ " moves:") ::
    ((steps.zipIdx 1).map fun (s, n) => line (padded n ++ ". " ++ s.description)) ++
    [line ("\nReadable groups: " ++ Route.letters ds), line "\nLoop-friendly code:",
      line (Route.script bound ds)]

/-- The tool that solves a maze: a preset, or that of a file. -/
def solveTool (settings : Settings) (disk : Disk) (subject : String) : Transcript :=
  let maze : Except Crash Maze :=
    match Preset.ofName? subject with
    | some p => .ok p.maze
    | none => readMaze disk subject
  match maze with
  | .error c => .brokenOff c
  | .ok maze =>
    match maze.opening.route? with
    | none => { outputs := [line "No solution found."], ending := .exit 1 }
    | some steps => { outputs := routeLines settings.rules.limits.bound steps, ending := .exit 0 }

/-! ### Showing a maze -/

/-- The tool that prints a preset maze. -/
def drawTool (words : List String) : Transcript :=
  match Maze.named (words.head?.getD "medium") with
  | .error f => .brokenOff (.maze f)
  | .ok maze => { outputs := [line maze.opening.picture], ending := .exit 0 }

namespace Tool

/-- The files that a tool may read, by path. -/
def paths (t : Tool) (words : List String) (host : Host := {}) : List String :=
  match t with
  | play =>
    match Arguments.read allOptions words host with
    | .ok (subject, a) => subject :: (a.maze.map Disk.cleanPath).toList
    | .error _ => []
  | solve =>
    match Arguments.read helpOnly words host with
    | .ok (subject, _) => [Disk.cleanPath subject]
    | .error _ => []
  | draw => []

/-- What a tool does with the words of a command line. -/
def perform (t : Tool) (settings : Settings) (disk : Disk) (input : String)
    (words : List String) (host : Host := {}) : Transcript :=
  match t with
  | play =>
    match Arguments.read allOptions words host with
    | .ok (subject, a) => playTool settings host disk input subject a
    | .error s => { ending := .stopped s }
  | solve =>
    match Arguments.read helpOnly words host with
    | .ok (subject, _) => solveTool settings disk subject
    | .error s => { ending := .stopped s }
  | draw => drawTool words

end Tool

end ScriptedMaze.Terminal
