import Mathlib.Data.List.Permutation
import ScriptedMaze.Proofs.Service.Renamed
import ScriptedMaze.Service.Routes

/-!
# Servers that have answered requests

A request that asks a session for something is one that the router takes to the view of the errand,
and it names the session in its body (`Router.errand?`). Everything else that a server can do to its
sessions is to start one: to be shown a session changes nothing, and the other requests are about no
session at all (`Server.Answered`).

So the sessions of a server that has answered requests, whichever they were
(`Server.Reached`), are in order, each of them: a new one is, and what is asked for keeps it so
(`Server.inOrder_answer`, `Server.inOrder_answers`). What this means for a client is
`Server.shape_of_reached`.

All of this is said of any router. What it sends where a view fails makes no difference: a client
that is told so has been refused (`Router.refuses_send`), and every other answer is sent as it is
(`Router.send_of_ne`).
-/

namespace ScriptedMaze.Service

/-- What a view is asked for, with the contents of the body. -/
def View.errand? (v : View) (content : Json) : Option Errand :=
  match v with
  | .reset => some .reset
  | .difficulty => some (.setDifficulty ((content.get? "difficulty").getD (.text "")))
  | .run => some (.run (Server.codeIn content))
  | .liveStart => some (.startLive (Server.codeIn content))
  | .liveNext => some .nextLive
  | .liveStop => some .stopLive
  | _ => none

/-- **The session that a request names, and what it asks that session for.** -/
def Router.errand? (ρ : Router) (r : Request) : Option (String × Errand) :=
  match ρ.route r.method r.address.path, r.content with
  | .view v, .ok (.object members) =>
    match (Json.object members).get? "session_id" with
    | some (.text id) =>
      if id = "" then none else (v.errand? (.object members)).map fun e => (id, e)
    | _ => none
  | _, _ => none

/-- The request is one for a new session. -/
def Router.Starts (ρ : Router) (r : Request) : Prop :=
  ρ.route r.method r.address.path = .view .start

namespace Router

variable {ρ : Router} {r : Request} {id : String} {e : Errand} {a : Answer}

/-- **What a session is asked for, the view of the errand is asked.** -/
theorem exists_of_errand? (h : ρ.errand? r = some (id, e)) :
    ∃ v members, ρ.route r.method r.address.path = .view v ∧ r.content = .ok (.object members) ∧
      (Json.object members).get? "session_id" = some (.text id) ∧ id ≠ "" ∧
      v.errand? (.object members) = some e := by
  unfold errand? at h
  split at h
  · rename_i v members hroute hcontent
    split at h
    · rename_i name hname
      split at h
      · cases h
      · rename_i hne
        obtain ⟨e', he', heq⟩ := Option.map_eq_some_iff.mp h
        cases heq
        exact ⟨v, members, hroute, hcontent, hname, hne, he'⟩
    · cases h
  · cases h

theorem errand?_eq {v : View} {members : List (String × Json)}
    (hroute : ρ.route r.method r.address.path = .view v)
    (hcontent : r.content = .ok (.object members))
    (hname : (Json.object members).get? "session_id" = some (.text id)) (hid : id ≠ "")
    (he : v.errand? (.object members) = some e) : ρ.errand? r = some (id, e) := by
  unfold errand?
  rw [hroute, hcontent]
  dsimp only
  rw [hname]
  dsimp only
  rw [if_neg hid, he]
  rfl

/-! ### What is sent -/

theorem send_of_ne (h : a.status ≠ 500) : ρ.send a = a := if_neg h

theorem send_ok (ρ : Router) (v : Json) : ρ.send (.ok v) = .ok v :=
  send_of_ne (show 200 ≠ 500 by decide)

theorem send_fault (ρ : Router) (message : String) : ρ.send (.fault message) = .fault message :=
  send_of_ne (show 400 ≠ 500 by decide)

/-- An answer below 500 is sent as it is, and none is sent instead of another. -/
theorem status_send_eq_iff {n : Nat} (hn : n < 500) : (ρ.send a).status = n ↔ a.status = n := by
  unfold send
  split
  · rename_i h
    have hfailure := ρ.failure_ge
    rw [h]
    refine iff_of_false (fun heq => ?_) (fun heq => ?_)
    · change ρ.failure = n at heq
      omega
    · change 500 = n at heq
      omega
  · rfl

/-- **A client is told that it is refused exactly if it is.** -/
theorem refuses_send : (ρ.send a).Refuses ↔ a.Refuses := by
  unfold send
  split
  · rename_i h
    exact iff_of_true (.inr (.inr ρ.failure_ge)) (.inr (.inr (ge_of_eq h)))
  · rfl

end Router

/-- A body that is read as an object with members is one. -/
theorem Request.content_eq_object {r : Request} {letters : List Text.Letter}
    {members : List (String × Json)} (hdecode : Text.decode r.body = some letters)
    (hread : Json.readLetters letters = .ok (.object members)) (hne : members ≠ []) :
    r.content = .ok (.object members) := by
  have hsome : (Json.object members).isNothing = false := by
    cases members with
    | nil => exact absurd rfl hne
    | cons member members => rfl
  unfold content Json.readBytes
  rw [hdecode]
  dsimp only
  rw [hread]
  dsimp only
  rw [hsome, if_neg Bool.false_ne_true]

namespace Server

variable {s s' : Server} {r : Request} {id : String} {e : Errand} {x y : Session} {a : Answer}

/-! ### Sessions by name -/

theorem mem_of_find? (h : s.find? id = some x) : x ∈ s.sessions :=
  List.mem_of_find?_eq_some h

theorem id_eq_of_find? (h : s.find? id = some x) : x.id = id := by
  simpa using List.find?_some h

/-- **The session of a name is the one that was put there last.** -/
theorem find?_update (h : s.find? x.id = some y) (id : String) :
    (s.update x).find? id = if id = x.id then some x else s.find? id := by
  unfold find? at h ⊢
  unfold update
  have hname : ∀ old : Session, (if old.id = x.id then x else old).id = old.id := by
    intro old
    split
    · rename_i heq
      exact heq.symm
    · rfl
  rw [List.find?_map]
  simp only [Function.comp_def, hname]
  split
  · rename_i heq
    subst heq
    rw [h]
    have hy : y.id = x.id := by simpa using List.find?_some h
    rw [Option.map_some, if_pos hy]
  · rename_i hne
    cases hold : s.sessions.find? (·.id = id) with
    | none => rfl
    | some old =>
      have hid : old.id = id := by simpa using List.find?_some hold
      rw [Option.map_some, if_neg (by rw [hid]; exact hne)]

theorem map_id_update (s : Server) (x : Session) :
    (s.update x).sessions.map Session.id = s.sessions.map Session.id := by
  unfold update
  rw [List.map_map]
  refine List.map_congr_left fun old _ => ?_
  dsimp only [Function.comp_apply]
  split
  · rename_i heq
    exact heq.symm
  · rfl

theorem mem_update (h : y ∈ (s.update x).sessions) : y = x ∨ y ∈ s.sessions := by
  obtain ⟨old, hold, rfl⟩ := List.mem_map.mp h
  split
  · exact .inl rfl
  · exact .inr hold

/-! ### What a view does -/

/-- **What a view does**: it tells something, starts a session, shows one, or does what a session is
asked for. -/
inductive Done (s : Server) (r : Request) (v : View) : Answer × Server → Prop
  | told (a : Answer) : Done s r v (a, s)
  | start (is_start : v = .start) : Done s r v (s.start r)
  | shown (look : Session → Answer) : Done s r v (s.answerQuery r fun x => (look x, x))
  | asked (posts : v.method = "POST") (errand : Json → Errand)
      (asks : ∀ c, v.errand? c = some (errand c)) :
      Done s r v (s.answerBody r fun c x => x.perform (errand c))

theorem console_snd (x : Session) (command : String) : (x.console command).2 = x := by
  unfold Session.console
  dsimp only
  split
  · rfl
  · rfl
  · rfl
  · cases hroute : x.game.world.route? with
    | none =>
      rw [Session.play_of_on (Play.on_solution_of_none hroute)]
    | some way =>
      obtain ⟨audience, hon⟩ :=
        Play.exists_on_solution Listener.passive_silent (t := ⟨x.game, ()⟩) hroute
      rw [Session.play_of_on hon]
  · rfl

theorem done_ask (s : Server) (r : Request) (v : View) : Done s r v (s.ask r v) := by
  cases v with
  | difficulties => exact .told s.difficulties
  | parse => exact .told (s.parse r)
  | start => exact .start rfl
  | state => exact .shown fun x => .ok x.payload
  | console =>
    have hconsole : s.ask r .console = s.answerQuery r fun x =>
        ((x.console ((r.address.param? "command").getD "")).1, x) :=
      congrArg (s.answerQuery r) (funext fun x => Prod.ext rfl (console_snd x _))
    rw [hconsole]
    exact .shown fun x => (x.console ((r.address.param? "command").getD "")).1
  | reset => exact .asked rfl (fun _ => .reset) fun _ => rfl
  | difficulty =>
    exact .asked rfl (fun c => .setDifficulty ((c.get? "difficulty").getD (.text ""))) fun _ => rfl
  | run => exact .asked rfl (fun c => .run (codeIn c)) fun _ => rfl
  | liveStart => exact .asked rfl (fun c => .startLive (codeIn c)) fun _ => rfl
  | liveNext => exact .asked rfl (fun _ => .nextLive) fun _ => rfl
  | liveStop => exact .asked rfl (fun _ => .stopLive) fun _ => rfl

/-- A view that is asked for an errand does it. -/
theorem exists_ask_of_errand? {v : View} {c : Json} (h : v.errand? c = some e) :
    ∃ errand : Json → Errand, (∀ c, v.errand? c = some (errand c)) ∧
      ∀ s r, ask s r v = s.answerBody r fun c x => x.perform (errand c) := by
  cases v with
  | reset => exact ⟨fun _ => .reset, fun _ => rfl, fun _ _ => rfl⟩
  | difficulty =>
    exact ⟨fun c => .setDifficulty ((c.get? "difficulty").getD (.text "")), fun _ => rfl,
      fun _ _ => rfl⟩
  | run => exact ⟨fun c => .run (codeIn c), fun _ => rfl, fun _ _ => rfl⟩
  | liveStart => exact ⟨fun c => .startLive (codeIn c), fun _ => rfl, fun _ _ => rfl⟩
  | liveNext => exact ⟨fun _ => .nextLive, fun _ => rfl, fun _ _ => rfl⟩
  | liveStop => exact ⟨fun _ => .stopLive, fun _ => rfl, fun _ _ => rfl⟩
  | _ => cases h

/-! ### What comes of a request -/

theorem answerIn_text (hid : id ≠ "") (s : Server) (act : Session → Answer × Session) :
    s.answerIn (.text id) act =
      match s.find? id with
      | some x => ((act x).1, s.update (act x).2)
      | none => (Answer.fault "invalid_session", s) := by
  have hname : ¬(Json.text id).isNothing = true := fun h => hid (String.isEmpty_iff.mp h)
  unfold answerIn
  exact (if_neg hname).trans rfl

theorem answerIn_of_find? (hid : id ≠ "") (hx : s.find? id = some x)
    (act : Session → Answer × Session) :
    s.answerIn (.text id) act = ((act x).1, s.update (act x).2) := by
  rw [answerIn_text hid, hx]

theorem answerQuery_eq (hid : r.address.param? "session_id" = some id) (s : Server)
    (act : Session → Answer × Session) : s.answerQuery r act = s.answerIn (.text id) act := by
  unfold answerQuery
  rw [hid]
  rfl

theorem answerBody_eq {members : List (String × Json)}
    (hcontent : r.content = .ok (.object members))
    (hid : (Json.object members).get? "session_id" = some (.text id)) (s : Server)
    (act : Json → Session → Answer × Session) :
    s.answerBody r act = s.answerIn (.text id) (act (.object members)) := by
  unfold answerBody
  rw [hcontent]
  dsimp only
  rw [hid]
  rfl

/-- A request about a session names one, or nothing is done. -/
theorem answerIn_cases (s : Server) (v : Json) (act : Session → Answer × Session) :
    (∃ a, s.answerIn v act = (a, s)) ∨
      ∃ id x, v = .text id ∧ id ≠ "" ∧ s.find? id = some x := by
  unfold answerIn
  by_cases hv : v.isNothing = true
  · rw [if_pos hv]
    exact .inl ⟨_, rfl⟩
  · rw [if_neg hv]
    split
    · exact .inl ⟨_, rfl⟩
    · exact .inl ⟨_, rfl⟩
    · rename_i id
      cases hx : s.find? id with
      | none => exact .inl ⟨_, rfl⟩
      | some x => exact .inr ⟨id, x, rfl, fun h => hv (String.isEmpty_iff.mpr h), hx⟩
    · exact .inl ⟨_, rfl⟩

/-- **What comes of a request.** -/
inductive Answered (s : Server) (r : Request) : Answer → Server → Prop
  /-- No session is touched. -/
  | kept (a : Answer) : Answered s r a s
  /-- A session is shown. -/
  | shown {x : Session} (a : Answer) (found : s.find? x.id = some x) : Answered s r a (s.update x)
  /-- A session is started. -/
  | started {x : Session} {a : Answer} (starts : s.router.Starts r)
      (named : x.id = s.nameOf s.sessions.length) (status : a.status = 200)
      (live : x.live = none) (resting : x.game.running = false) :
      Answered s r a { s with sessions := s.sessions ++ [x] }
  /-- A session is asked for something. -/
  | asked {id : String} {e : Errand} {x : Session} (asks : s.router.errand? r = some (id, e))
      (found : s.find? id = some x) :
      Answered s r (s.router.send (x.perform e).1) (s.update (x.perform e).2)

theorem answered_start (s : Server) (hr : s.router.Starts r) :
    Answered s r (s.router.send (s.start r).1) (s.start r).2 := by
  unfold start
  split
  · exact .kept _
  · rename_i maze _
    obtain ⟨_, t, hon, hsame⟩ := Play.succeeds_reset (σ := Unit) Listener.passive_silent
      ⟨Game.unopened s.rules maze, ()⟩
    obtain ⟨status, hgame⟩ := hsame
    have hnew : Game.new Listener.silent s.rules maze () = (.ok (), t) := hon
    rw [hnew]
    exact .started hr rfl rfl rfl (by rw [hgame]; rfl)

theorem answerQuery_cases (s : Server) (r : Request) (look : Session → Answer) :
    (∃ a, (s.answerQuery r fun x => (look x, x)) = (a, s)) ∨
      ∃ a x, s.find? x.id = some x ∧
        (s.answerQuery r fun x => (look x, x)) = (a, s.update x) := by
  unfold answerQuery
  rcases answerIn_cases s (Json.orNull .text (r.address.param? "session_id")) fun x => (look x, x)
    with h | ⟨id, x, hv, hid, hx⟩
  · exact .inl h
  · rw [hv, answerIn_of_find? hid hx]
    exact .inr ⟨_, x, by rw [id_eq_of_find? hx]; exact hx, rfl⟩

theorem answered_answerBody {v : View} (hroute : s.router.route r.method r.address.path = .view v)
    {errand : Json → Errand} (herrand : ∀ c, v.errand? c = some (errand c)) :
    Answered s r (s.router.send (s.answerBody r fun c x => x.perform (errand c)).1)
      (s.answerBody r fun c x => x.perform (errand c)).2 := by
  unfold answerBody
  split
  · rename_i members hcontent
    dsimp only
    rcases answerIn_cases s (((Json.object members).get? "session_id").getD .null)
      fun x => x.perform (errand (.object members)) with ⟨a, h⟩ | ⟨id, x, hv, hid, hx⟩
    · rw [h]
      exact .kept _
    · have hname : (Json.object members).get? "session_id" = some (.text id) := by
        generalize (Json.object members).get? "session_id" = v? at hv
        cases v? with
        | none => cases hv
        | some v => rw [← hv]; rfl
      rw [hv, answerIn_of_find? hid hx]
      exact .asked (Router.errand?_eq hroute hcontent hname hid (herrand _)) hx
  · exact .kept _

/-- To be shown a session is all the same however the answer is sent. -/
theorem answered_answerQuery (s : Server) (r : Request) (send : Answer → Answer)
    (look : Session → Answer) :
    Answered s r (send (s.answerQuery r fun x => (look x, x)).1)
      (s.answerQuery r fun x => (look x, x)).2 := by
  rcases answerQuery_cases s r look with ⟨a, h⟩ | ⟨a, x, hx, h⟩ <;> rw [h]
  · exact .kept _
  · exact .shown _ hx

/-- **Whatever a client sends, nothing else comes of it.** -/
theorem answered (s : Server) (r : Request) : Answered s r (s.answer r).1 (s.answer r).2 := by
  unfold answer
  split
  · rename_i v hroute
    have hdone := s.done_ask r v
    generalize s.ask r v = p at hdone ⊢
    cases hdone with
    | told a => exact .kept _
    | start is_start => exact answered_start s (hroute.trans (congrArg Routing.view is_start))
    | shown look => exact answered_answerQuery s r s.router.send look
    | asked _ errand asks => exact answered_answerBody hroute asks
  · rename_i v hroute
    have hget := s.router.method_of_head hroute
    have hdone := s.done_ask r v
    generalize s.ask r v = p at hdone ⊢
    cases hdone with
    | told a => exact .kept _
    | start is_start =>
      rw [is_start] at hget
      exact absurd hget (by decide)
    | shown look =>
      exact answered_answerQuery s r (fun a => { s.router.send a with body := none }) look
    | asked posts _ _ => exact absurd (posts.symm.trans hget) (by decide)
  · exact .kept _

/-- **Nothing but the sessions of a server changes.** -/
theorem exists_answer_eq (s : Server) (r : Request) :
    ∃ sessions, (s.answer r).2 = { s with sessions } := by
  have hanswered := s.answered r
  generalize s.answer r = p at hanswered
  obtain ⟨a, s'⟩ := p
  cases hanswered <;> exact ⟨_, rfl⟩

theorem settings_answer (s : Server) (r : Request) : (s.answer r).2.settings = s.settings := by
  obtain ⟨_, h⟩ := s.exists_answer_eq r
  rw [h]

theorem nameOf_answer (s : Server) (r : Request) : (s.answer r).2.nameOf = s.nameOf := by
  obtain ⟨_, h⟩ := s.exists_answer_eq r
  rw [h]

theorem router_answer (s : Server) (r : Request) : (s.answer r).2.router = s.router := by
  obtain ⟨_, h⟩ := s.exists_answer_eq r
  rw [h]

theorem nameOf_answers (s : Server) (rs : List Request) : (s.answers rs).2.nameOf = s.nameOf := by
  induction rs generalizing s with
  | nil => rfl
  | cons r rs ih => exact (ih (s.answer r).2).trans (nameOf_answer s r)

/-- **What a session is asked for is done**, and nothing else. -/
theorem answer_of_errand? (hr : s.router.errand? r = some (id, e)) (hx : s.find? id = some x) :
    s.answer r = (s.router.send (x.perform e).1, s.update (x.perform e).2) := by
  obtain ⟨v, members, hroute, hcontent, hname, hid, he⟩ := Router.exists_of_errand? hr
  obtain ⟨errand, herrand, hask⟩ := exists_ask_of_errand? he
  cases (herrand _).symm.trans he
  unfold answer
  rw [hroute]
  dsimp only
  rw [hask, answerBody_eq hcontent hname, answerIn_of_find? hid hx]

/-- The session that is asked for something is afterwards found as the errand leaves it. -/
theorem find?_answer (hr : s.router.errand? r = some (id, e)) (hx : s.find? id = some x) :
    (s.answer r).2.find? id = some (x.perform e).2 := by
  have hid : (x.perform e).2.id = id := (x.id_perform e).trans (id_eq_of_find? hx)
  rw [answer_of_errand? hr hx]
  dsimp only
  rw [find?_update (by rw [hid]; exact hx), if_pos hid.symm]

/-- **A new session is what a request for one is answered with.** -/
theorem answer_of_starts (hr : s.router.Starts r) :
    s.answer r = (s.router.send (s.start r).1, (s.start r).2) := by
  unfold answer
  rw [hr]
  rfl

/-! ### Reached servers -/

/-- **A server that has answered requests**, beginning without a session. -/
def Reached (s : Server) : Prop :=
  ∃ settings nameOf router rs, s = (({ settings, nameOf, router } : Server).answers rs).2

/-- **One request leaves all sessions in order.** -/
theorem inOrder_answer (h : ∀ x ∈ s.sessions, x.InOrder) (r : Request) :
    ∀ x ∈ (s.answer r).2.sessions, x.InOrder := by
  intro y hy
  have hanswered := s.answered r
  generalize s.answer r = p at hanswered hy
  obtain ⟨a, s'⟩ := p
  cases hanswered with
  | kept _ => exact h y hy
  | @shown x _ found =>
    rcases mem_update hy with rfl | hold
    · exact h y (mem_of_find? found)
    · exact h y hold
  | @started x _ _ _ _ live resting =>
    rcases List.mem_append.mp hy with hold | hnew
    · exact h y hold
    · obtain rfl := List.mem_singleton.mp hnew
      exact .of_idle live resting
  | @asked id e x _ found =>
    rcases mem_update hy with rfl | hold
    · have hx := h x (mem_of_find? found)
      exact (hx.performed e).inOrder hx
    · exact h y hold

/-- **All requests do**, one after the other. -/
theorem inOrder_answers (rs : List Request) (h : ∀ x ∈ s.sessions, x.InOrder) :
    ∀ x ∈ (s.answers rs).2.sessions, x.InOrder := by
  induction rs generalizing s with
  | nil => exact h
  | cons r rs ih => exact ih (inOrder_answer h r)

theorem Reached.inOrder (h : s.Reached) : ∀ x ∈ s.sessions, x.InOrder := by
  obtain ⟨settings, nameOf, router, rs, rfl⟩ := h
  exact inOrder_answers rs (by simp)

theorem Reached.inOrder_of_find? (h : s.Reached) (hx : s.find? id = some x) : x.InOrder :=
  h.inOrder x (mem_of_find? hx)

/-! ### A server with a live run underway -/

/-- A client asks the session named `a` for something; `more` stands behind its name. -/
def posted (path : String) (more : String := "") : Request where
  method := "POST"
  address := { path }
  body := ("\x7b\"session_id\": \"a\"" ++ more ++ "\x7d").toUTF8

/-- A server in whose only session a live run has made the first of two moves. -/
def halfway : Server :=
  (({ settings := {}, nameOf := fun _ => "a" } : Server).answers [
    posted "/api/session/start",
    posted "/api/session/live/start" ", \"code\": \"moveRight(); moveRight();\"",
    posted "/api/session/live/next"]).2

theorem reached_halfway : halfway.Reached := ⟨_, _, _, _, rfl⟩

theorem exists_halfway :
    ∃ x, halfway.find? "a" = some x ∧ x.game.running = true ∧ x.live ≠ none := by
  have hany : (halfway.find? "a").any (·.game.running) = true := by decide +kernel
  obtain ⟨x, hx, hrunning⟩ : ∃ x, halfway.find? "a" = some x ∧ x.game.running = true := by
    simpa [Option.any_eq_true] using hany
  obtain ⟨r, hr, -⟩ := (reached_halfway.inOrder_of_find? hx).shape.live_of_running hrunning
  exact ⟨x, hx, hrunning, by simp [hr]⟩

/-- What the session is asked for, if its name can be read. -/
theorem errand?_posted {ρ : Router} (v : View) {more : String} {letters : List Text.Letter}
    {members : List (String × Json)} {e : Errand} (hmethod : v.method = "POST")
    (hdecode : Text.decode (posted v.path more).body = some letters)
    (hread : Json.readLetters letters = .ok (.object members))
    (hname : (Json.object members).get? "session_id" = some (.text "a"))
    (he : v.errand? (.object members) = some e) :
    ρ.errand? (posted v.path more) = some ("a", e) := by
  have hcontent : (posted v.path more).content = .ok (.object members) := by
    refine Request.content_eq_object hdecode hread ?_
    rintro rfl
    cases hname
  have hroute := ρ.serves v
  rw [hmethod] at hroute
  exact Router.errand?_eq hroute hcontent hname (by decide) he

theorem errand?_posted_alone {ρ : Router} (v : View) {e : Errand} (hmethod : v.method = "POST")
    (he : v.errand? (.object [("session_id", .text "a")]) = some e) :
    ρ.errand? (posted v.path) = some ("a", e) := by
  have hdecode : Text.decode (posted "").body =
      some ("\x7b\"session_id\": \"a\"\x7d".toList.map .char) := by decide +kernel
  exact errand?_posted v hmethod hdecode (by cbv) rfl he

theorem errand?_posted_run {ρ : Router} :
    ρ.errand? (posted "/api/session/run" ", \"code\": \"moveLeft();\"") =
      some ("a", .run (.text "moveLeft();")) := by
  have hdecode : Text.decode (posted "" ", \"code\": \"moveLeft();\"").body = some
      ("\x7b\"session_id\": \"a\", \"code\": \"moveLeft();\"\x7d".toList.map .char) := by
    decide +kernel
  exact errand?_posted .run rfl hdecode (by cbv) rfl rfl

/-! ### What a client can rely on -/

/-- **The handle of the live run and the game agree.** Whatever was asked of a server, each
session has one of three shapes. So a script is turned down as busy exactly while a run owns the
game; a live run that is there can be asked for a step; and what ends live runs, unless it is
refused, leaves the game to nobody and no live run. To stop a live run moves nothing. -/
theorem shape_of_reached (h : s.Reached) :
    (∀ x ∈ s.sessions, x.Shape) ∧
      ∀ r id e x, s.router.errand? r = some (id, e) → s.find? id = some x →
        (e.HasScript → ((s.answer r).1.status = 409 ↔ x.game.running = true)) ∧
        (e = .nextLive → x.live ≠ none → (s.answer r).1.status = 200) ∧
        ∃ x', (s.answer r).2.find? id = some x' ∧
          (e.EndsLive → (s.answer r).1.status = 200 →
            x'.live = none ∧ x'.game.running = false) ∧
          (e = .stopLive → x'.game.world = x.game.world ∧ x'.game.steps = x.game.steps) := by
  refine ⟨fun x hx => (h.inOrder x hx).shape, fun r id e x hr hx => ?_⟩
  have hperformed := (h.inOrder_of_find? hx).performed e
  have hstatus : ∀ {n : Nat}, n < 500 → ((s.answer r).1.status = n ↔ (x.perform e).1.status = n) := by
    intro n hn
    rw [answer_of_errand? hr hx]
    exact Router.status_send_eq_iff hn
  rw [hstatus (n := 409) (by decide), hstatus (n := 200) (by decide)]
  refine ⟨hperformed.status_eq_busy_iff, ?_, _, find?_answer hr hx,
    hperformed.idle_of_endsLive, ?_⟩
  · rintro rfl hlive
    exact hperformed.status_nextLive hlive
  · rintro rfl
    exact hperformed.world_stopLive

/-- Halfway through a live run the session is busy, can be asked for the next step, and is free
once the run was stopped. -/
theorem shape_of_reached_halfway :
    ∃ x x', halfway.find? "a" = some x ∧ x.game.running = true ∧
      (halfway.answer (posted "/api/session/run" ", \"code\": \"moveLeft();\"")).1.status = 409 ∧
      (halfway.answer (posted "/api/session/live/next")).1.status = 200 ∧
      (halfway.answer (posted "/api/session/live/stop")).2.find? "a" = some x' ∧
      x'.live = none ∧ x'.game.running = false ∧
      x'.game.world = x.game.world ∧ x'.game.steps = x.game.steps := by
  have hnext : halfway.router.errand? (posted "/api/session/live/next") = some ("a", .nextLive) :=
    errand?_posted_alone .liveNext rfl rfl
  have hstop : halfway.router.errand? (posted "/api/session/live/stop") = some ("a", .stopLive) :=
    errand?_posted_alone .liveStop rfl rfl
  have hstopped : (halfway.answer (posted "/api/session/live/stop")).1.status = 200 := by
    decide +kernel
  obtain ⟨x, hx, hrunning, hlive⟩ := exists_halfway
  obtain ⟨-, hall⟩ := shape_of_reached reached_halfway
  obtain ⟨x', hx', hends, hmoves⟩ := (hall _ _ _ x hstop hx).2.2
  obtain ⟨hnone, hidle⟩ := hends trivial hstopped
  obtain ⟨hworld, hsteps⟩ := hmoves rfl
  exact ⟨x, x', hx, hrunning, ((hall _ _ _ x errand?_posted_run hx).1 trivial).mpr hrunning,
    (hall _ _ _ x hnext hx).2.1 rfl hlive, hx', hnone, hidle, hworld, hsteps⟩

end Server

end ScriptedMaze.Service
