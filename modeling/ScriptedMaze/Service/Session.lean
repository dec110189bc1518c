import ScriptedMaze.Play.Console
import ScriptedMaze.Play.Pace
import ScriptedMaze.Play.Written
import ScriptedMaze.Service.Request
import ScriptedMaze.Settings

/-!
# Sessions

A session is one client's game, together with the live run that the client
polls, if there is one. Nobody listens to the game: what happens is told in the
answers.

Every operation of a session gives the session as the operation leaves it, also
where it fails.
-/

namespace ScriptedMaze.Service

/-- A client's game. -/
structure Session where
  id : String
  game : Game
  live : Option Run := none

/-- Why there is no answer as planned. -/
inductive Refusal where
  /-- The game refuses. -/
  | game (f : GameFault)
  /-- A value is not of the sort that is asked for. -/
  | malformed

namespace Refusal

/-- The answer to a request that is refused. -/
def answer : Refusal → Answer
  | game (.script f) =>
    Answer.fault f.message 400 [("kind", .text f.kind.name), ("line", Json.orNull .nat f.line?)]
  | game .busy => Answer.fault GameFault.busy.message 409
  | game (.maze f) => Answer.fault f.message
  | malformed => Answer.broken

end Refusal

namespace Session

/-- Does something to the game of a session. -/
def play {α : Type} (s : Session) (act : Play Unit α) : Except GameFault α × Session :=
  let (result, t) := act.on ⟨s.game, ()⟩
  (result, { s with game := t.game })

/-- The text of a status as a client is shown it. It may quote what was packed. -/
def message (text : String) : Json := .ofLetters (Text.unpacked text.toList)

/-- The session as a client is shown it. -/
def payload (s : Session) (more : List (String × Json) := []) : Json :=
  .object (("session_id", .text s.id) :: s.game.snapshot message ++ more)

/-- Gives up the live run. -/
def closeLive (s : Session) : Session :=
  match s.live with
  | none => s
  | some run => { (s.play (Play.close run)).2 with live := none }

/-- Starts the maze over. -/
def reset (s : Session) : Answer × Session :=
  let (_, s) := s.closeLive.play (Play.reset Listener.silent)
  (.ok s.payload, s)

/-- Changes to another maze. The live run is given up in any case. -/
def setDifficulty (s : Session) (name : Json) : Answer × Session :=
  let s := s.closeLive
  match name with
  | .text name =>
    match s.play (Play.setDifficulty Listener.silent name) with
    | (.ok _, s) => (.ok s.payload, s)
    | (.error f, s) => ((Refusal.game f).answer, s)
  | .list _ => (Answer.broken, s)
  | .object _ => (Answer.broken, s)
  | other => ((Refusal.game (.maze (.unknownPreset other.shown))).answer, s)

/-- The script that a value holds, packed into a string; null is an empty one. -/
def scriptOf? : Json → Option String
  | .text s => some (Text.packed (Text.letters s))
  | .torn ls => some (Text.packed ls)
  | .null => some ""
  | _ => none

/-- Plays a script from its first step to its last, if its reading comes to its end. -/
def playThrough (source : String) : Play Unit (Option (List Report)) := do
  match ← Play.openBatch? Listener.silent source with
  | some run => return some (← Play.drain Listener.silent ⟨run, []⟩)
  | none => return none

/-- Runs a script to its end. A value that is no script, or one that goes too deep,
gets as far as the announcement that it is read. -/
def run (s : Session) (code : Json) : Answer × Session :=
  match scriptOf? code with
  | some source =>
    match s.play (playThrough source) with
    | (.ok (some reports), s) =>
      (.ok (s.payload [("steps", .list (reports.map Report.toJson))]), s)
    | (.ok none, s) => (Refusal.malformed.answer, s)
    | (.error f, s) => ((Refusal.game f).answer, s)
  | none =>
    match s.play (Play.announceReading Listener.silent) with
    | (.ok _, s) => (Refusal.malformed.answer, s)
    | (.error f, s) => ((Refusal.game f).answer, s)

/-- Takes up a live run of a script. -/
def startLive (s : Session) (code : Json) : Answer × Session :=
  match scriptOf? code with
  | some source =>
    match s.play (Play.openLive Listener.silent source) with
    | (.ok run, s) =>
      let s := { s with live := some run }
      (.ok s.payload, s)
    | (.error f, s) => ((Refusal.game f).answer, s)
  | none =>
    if s.game.running then ((Refusal.game .busy).answer, s) else (Refusal.malformed.answer, s)

/-- The next step of the live run, which is given up once it has ended. -/
def nextLive (s : Session) : Answer × Session :=
  match s.live with
  | none => (Answer.fault "no_live_run", s)
  | some run =>
    match s.play (Play.next Listener.silent run) with
    | (.error _, s) => (Answer.broken, { s with live := some .ended })
    | (.ok (report?, run), s) =>
      let s := { s with live := some run }
      let done := report?.isNone || !s.game.running
      let s := if done then s.closeLive else s
      (.ok (s.payload [("step", Json.orNull Report.toJson report?), ("done", .truth done)]), s)

/-- Stops the live run. A run that owns the game is told to stop and asked once
more, so that it can say so; one that was not begun is only given up. -/
def stopLive (s : Session) : Answer × Session :=
  match s.live with
  | none => (Answer.fault "no_live_run", s)
  | some run =>
    let s :=
      if s.game.running then
        let act : Play Unit (Option Report × Run) := do
          Play.cancel
          Play.next Listener.silent run
        match s.play act with
        | (.ok (_, run), s) => { s with live := some run }
        | (.error _, s) => { s with live := some .ended }
      else s
    let s := s.closeLive
    (.ok s.payload, s)

/-- What a client can ask for on the console, by name. -/
def consoleCommands : List String := ["hint", "show_maze", "show_position", "solution"]

/-- What the console prints for a command. -/
def console (s : Session) (command : String) : Answer × Session :=
  let printed (output : String) : Answer :=
    .ok (.object [("status", .text "ok"), ("command", .text command), ("output", .text output)])
  match command with
  | "hint" => (printed Game.advice, s)
  | "show_maze" => (printed s.game.showMaze, s)
  | "show_position" => (printed s.game.showPosition, s)
  | "solution" =>
    match s.play (Play.solution Listener.silent) with
    | (.ok (some script), s) => (printed script, s)
    | (_, s) => (Answer.fault "no_solution", s)
  | _ => (Answer.fault "unknown_command" 400
      [("choices", .list (consoleCommands.map .text))], s)

end Session

end ScriptedMaze.Service
