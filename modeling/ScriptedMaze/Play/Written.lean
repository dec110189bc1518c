import ScriptedMaze.Json.Value
import ScriptedMaze.Play.Report

/-!
# Games and reports as JSON

What a program is told of a game: the report on a move, with its events, and a
snapshot of the game as it stands.
-/

namespace ScriptedMaze

/-- The name of an effect. -/
def Effect.name : Effect → String
  | none => "none"
  | keyCollected => "key_collected"
  | doorOpened => "door_opened"
  | flagReached => "flag_reached"

/-- A point as a list of two numbers. -/
def Point.toJson (p : Point) : Json := .list [.int p.x, .int p.y]

/-- An event, told by its type. -/
def Event.toJson : Event → Json
  | move d origin target => .object [
      ("type", .text "move"), ("direction", .text d.name), ("from", origin.toJson),
      ("to", target.toJson)]
  | blocked d place target => .object [
      ("type", .text "blocked"), ("direction", .text d.name), ("at", place.toJson),
      ("target", target.toJson)]
  | key place => .object [("type", .text "key"), ("at", place.toJson)]
  | door place => .object [("type", .text "door"), ("at", place.toJson)]
  | flag place => .object [("type", .text "flag"), ("at", place.toJson)]

/-- A report. A game is over for good at the flag, so that it is done exactly
when it is won. -/
def Report.toJson (r : Report) : Json := .object [
  ("ok", .truth r.verdict.ok),
  ("action", .text r.action),
  ("moved", .truth (match r.verdict with | .moved _ => true | _ => false)),
  ("blocked", .truth (r.verdict = .blocked)),
  ("effect", .text r.verdict.effect.name),
  ("pos", r.robot.toJson),
  ("has_key", .truth r.hasKey),
  ("won", .truth r.finished),
  ("done", .truth r.finished),
  ("reason", Json.orNull .text r.verdict.reason?),
  ("ascii", .text r.picture),
  ("index", .nat r.index),
  ("line", Json.orNull .nat r.line),
  ("events", .list (r.events.map Event.toJson))]

namespace Game

/-- The members of a snapshot; `message` writes the text of the status. -/
def snapshot (g : Game) (message : String → Json := .text) : List (String × Json) := [
  ("difficulty", .text g.maze.name),
  ("hint", .text g.maze.hint),
  ("ascii", .text g.world.picture),
  ("width", .nat g.world.grid.width),
  ("height", .nat g.world.grid.height),
  ("pos", g.world.robot.toJson),
  ("has_key", .truth g.world.hasKey),
  ("finished", .truth g.world.finished),
  ("running", .truth g.running),
  ("run_status", .text g.phase.name),
  ("step_count", .nat g.steps),
  ("status", .object [
    ("message", message g.status.text), ("severity", .text g.status.severity.name)])]

end Game

end ScriptedMaze
