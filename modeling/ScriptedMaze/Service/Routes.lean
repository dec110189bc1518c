import ScriptedMaze.Service.Router
import ScriptedMaze.Service.Session

/-!
# The service

A **server** keeps the sessions and answers requests. What is done for a request
is up to the view that the router asks (`Server.ask`). Most views are about one
session, which the request names: in its query, or, if it has a body, in there
(`Server.answerIn`).

Sessions get names that no client can guess; where the names come from is not
the server's business, and it is given the name of the `n`-th session. Neither is
how requests come to views, for which it is given a router.
-/

namespace ScriptedMaze.Service

/-- The settings and the sessions, the oldest first. -/
structure Server where
  settings : Settings
  /-- The name of the `n`-th session. -/
  nameOf : Nat → String
  sessions : List Session := []
  router : Router := .usual

namespace Server

/-- The session of a given name. -/
def find? (s : Server) (id : String) : Option Session :=
  s.sessions.find? (·.id = id)

/-- Puts a session in the place of the one of its name. -/
def update (s : Server) (session : Session) : Server :=
  { s with sessions := s.sessions.map fun old => if old.id = session.id then session else old }

/-- Answers a request about the session of a given name. -/
def answerIn (s : Server) (id : Json) (act : Session → Answer × Session) : Answer × Server :=
  if id.isNothing then (Answer.fault "invalid_session", s)
  else
    match id with
    | .list _ => (Answer.broken, s)
    | .object _ => (Answer.broken, s)
    | .text id =>
      match s.find? id with
      | some session =>
        let (answer, session) := act session
        (answer, s.update session)
      | none => (Answer.fault "invalid_session", s)
    | _ => (Answer.fault "invalid_session", s)

/-- Answers a request whose query names the session. -/
def answerQuery (s : Server) (r : Request) (act : Session → Answer × Session) :
    Answer × Server :=
  s.answerIn (Json.orNull .text (r.address.param? "session_id")) act

/-- Answers a request whose body names the session. -/
def answerBody (s : Server) (r : Request) (act : Json → Session → Answer × Session) :
    Answer × Server :=
  match r.content with
  | .ok (.object members) =>
    let content := Json.object members
    s.answerIn ((content.get? "session_id").getD .null) (act content)
  | _ => (Answer.broken, s)

/-- The mazes to choose from. -/
def difficulties (s : Server) : Answer :=
  let item (p : Preset) : Json := .object [
    ("name", .text p.name), ("hint", .text p.hint), ("width", .nat p.maze.grid.width),
    ("height", .nat p.maze.grid.height)]
  .ok (.object [
    ("difficulties", .list (Preset.all.map item)), ("default", .text s.settings.difficulty)])

/-- The script in a body, an empty one if there is none. -/
def codeIn (content : Json) : Json := (content.get? "code").getD (.text "")

/-- What a script asks for. -/
def parse (s : Server) (r : Request) : Answer :=
  match r.content with
  | .ok (.object members) =>
    match (Session.scriptOf? (codeIn (.object members))).bind
        (Script.commands? s.settings.rules.limits) with
    | none => Answer.broken
    | some (.error f) => (Refusal.game (.script f)).answer
    | some (.ok ds) =>
      .ok (.object [
        ("status", .text "ok"), ("commands", .list (ds.map fun d => .text d.name)),
        ("count", .nat ds.length), ("sequence", .text (Script.describe ds))])
  | _ => Answer.broken

/-- What the message calls a value that is no object. -/
def sortName : Json → String
  | .null => "NoneType"
  | .truth _ => "bool"
  | .int _ => "int"
  | .real _ => "float"
  | .text _ => "str"
  | .torn _ => "str"
  | .list _ => "list"
  | .object _ => "dict"

/-- The maze that a new session is to begin with. -/
def firstMaze (s : Server) (content : Json) : Except String Maze :=
  match content with
  | .object members =>
    let named (v : Json) : Except String Maze :=
      match v with
      | .text name =>
        match Maze.named name with
        | .ok m => .ok m
        | .error f => .error f.message
      | .list _ => .error "unhashable type: 'list'"
      | .object _ => .error "unhashable type: 'dict'"
      | v => .error (MazeFault.unknownPreset v.shown).message
    match (Json.object members).get? "difficulty" with
    | none => named (.text s.settings.difficulty)
    | some v => named (if v.isNothing then .text s.settings.difficulty else v)
  | v => .error ("'" ++ sortName v ++ "' object has no attribute 'get'")

/-- The rules of the games that are played in sessions. The status quotes what is
shown at the flag as it quotes scripts, so that it is packed as they are. -/
def rules (s : Server) : Rules :=
  { s.settings.rules with flagText := Text.packed (Text.letters s.settings.rules.flagText) }

/-- Starts a session. -/
def start (s : Server) (r : Request) : Answer × Server :=
  match (r.content.mapError Json.Fault.message) >>= s.firstMaze with
  | .error message => (Answer.fault message, s)
  | .ok maze =>
    let (_, t) := Game.new Listener.silent s.rules maze ()
    let session : Session := { id := s.nameOf s.sessions.length, game := t.game }
    (.ok session.payload, { s with sessions := s.sessions ++ [session] })

/-- What a view does. -/
def ask (s : Server) (r : Request) : View → Answer × Server
  | .difficulties => (s.difficulties, s)
  | .parse => (s.parse r, s)
  | .start => s.start r
  | .state => s.answerQuery r fun x => (.ok x.payload, x)
  | .console => s.answerQuery r fun x => x.console ((r.address.param? "command").getD "")
  | .reset => s.answerBody r fun _ x => x.reset
  | .difficulty => s.answerBody r fun c x =>
      x.setDifficulty ((c.get? "difficulty").getD (.text ""))
  | .run => s.answerBody r fun c x => x.run (codeIn c)
  | .liveStart => s.answerBody r fun c x => x.startLive (codeIn c)
  | .liveNext => s.answerBody r fun _ x => x.nextLive
  | .liveStop => s.answerBody r fun _ x => x.stopLive

/-- Answers a request. -/
def answer (s : Server) (r : Request) : Answer × Server :=
  match s.router.route r.method r.address.path with
  | .view v =>
    let (a, after) := s.ask r v
    (s.router.send a, after)
  | .head v =>
    let (a, after) := s.ask r v
    ({ s.router.send a with body := none }, after)
  | .own status => (.bare status, s)

/-- Answers requests one after the other. -/
def answers (s : Server) : List Request → List Answer × Server
  | [] => ([], s)
  | r :: rest =>
    let (a, s) := s.answer r
    let (more, s) := s.answers rest
    (a :: more, s)

end Server

end ScriptedMaze.Service
