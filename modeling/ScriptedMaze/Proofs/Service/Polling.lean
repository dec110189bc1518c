import ScriptedMaze.Proofs.Service.Refused

/-!
# Live runs that are polled

A client takes up a live run, and then asks for one step after the other. What it is told is
nothing else than what whoever plays the same script without pausing gets to know: the same steps,
in the same order, each of them once (`Session.Delivers`).

When the run is over is found out in two ways. The answer to a request has no step, or no run owns
the game after it. A run that ends with a blocked move or at a flag is over with that step, and the
answer that carries the step says so; any other run is over with the request after its last step.
So there are as many answers as steps, or one more (`answersFor`). In particular a run that makes
no move, or that does not begin because the flag has been reached, takes one answer.

A session and a player who goes on without pausing ask the run for its steps in the same way, and
so a session is followed along the requests of that player (`Session.InOrder.exists_delivers`).
What a server does besides for other sessions makes no difference (`Server.answer_asking`).
-/

namespace ScriptedMaze

/-- **A run ends with this step**: it was blocked, or it reached a flag. -/
def Report.EndsRun (res : Report) : Prop :=
  res.verdict = .blocked ∨ res.verdict = .moved .flagReached

instance (res : Report) : Decidable res.EndsRun := inferInstanceAs (Decidable (_ ∨ _))

theorem World.endsRun_moveReport (w : World) (d : Direction) (index : Nat) (line : Option Nat) :
    (w.moveReport d index line).EndsRun ↔ (w.move d).2.ends = true := by
  change (w.move d).2.verdict = .blocked ∨ (w.move d).2.verdict = .moved .flagReached ↔ _
  rw [Outcome.ends_iff, Outcome.verdict_eq_blocked_iff]
  refine or_congr_right ?_
  cases (w.move d).2 <;> simp [Outcome.verdict]

namespace Service

open Play

/-- **How many answers tell the steps of a run**: one for each step, and one more unless the run
ends with the last of them. -/
def answersFor (reports : List Report) : Nat :=
  reports.length + if ∃ res ∈ reports.getLast?, res.EndsRun then 0 else 1

theorem answersFor_nil : answersFor [] = 1 := rfl

theorem answersFor_singleton {res : Report} (h : res.EndsRun) : answersFor [res] = 1 := by
  simp [answersFor, h]

theorem answersFor_cons {res : Report} (h : ¬res.EndsRun) (rest : List Report) :
    answersFor (res :: rest) = answersFor rest + 1 := by
  cases rest with
  | nil => simp [answersFor, h]
  | cons next rest =>
    unfold answersFor
    rw [List.getLast?_cons_cons, List.length_cons]
    omega

namespace Session

variable {x : Session} {run : Run} {res : Report} {rest reports : List Report} {g g' : Game}

/-- The session after it was asked for the next step a number of times. -/
def later (x : Session) : Nat → Session
  | 0 => x
  | k + 1 => x.nextLive.2.later k

theorem later_succ (x : Session) (k : Nat) : x.later (k + 1) = (x.later k).nextLive.2 := by
  induction k generalizing x with
  | zero => rfl
  | succ k ih => exact ih x.nextLive.2

/-- The session after its live run has left the game to nobody. -/
def leftIdle (x : Session) (g : Game) : Session := { x with game := g, live := none }

/-- The answer that carries what there was to tell last. -/
def lastAnswer (x : Session) (res? : Option Report) : Answer :=
  .ok (x.payload [("step", Json.orNull Report.toJson res?), ("done", .truth true)])

/-- **A session delivers the steps of a run**, one with each answer, and then its game is what the
run has made of it. If there are fewer steps than answers, there is none in the last answer. -/
structure Delivers (x : Session) (reports : List Report) (g : Game) : Prop where
  /-- The answers before the last one carry a step each, and say that there is more to come. -/
  going : ∀ k, k + 1 < answersFor reports → (x.later k).nextLive.1.step =
    (200, some (Json.orNull Report.toJson reports[k]?), some (.truth false))
  /-- The last answer says that the run is over. -/
  last : ∀ k, k + 1 = answersFor reports →
    (x.later k).nextLive = ((x.leftIdle g).lastAnswer reports[k]?, x.leftIdle g)

/-! ### One request -/

theorem answered_of_leftIdle {p : Option Report × Run} (h : (p.1.isNone || !g.running) = true) :
    x.answered p g = ((x.leftIdle g).lastAnswer p.1, x.leftIdle g) := by
  unfold answered leftIdle lastAnswer
  dsimp only
  rw [h]
  rfl

theorem answered_of_going (x : Session) (res : Report) (run : Run) (h : g.running = true) :
    (x.answered (some res, run) g).2 = { x with game := g, live := some run } := by
  unfold answered
  rw [h]
  rfl

/-- A run that has nothing left to do is over with the first request. -/
theorem delivers_none (h : x.nextLive = x.answered (none, run) g) : x.Delivers [] g where
  going k hk := by
    rw [answersFor_nil] at hk
    omega
  last k hk := by
    obtain rfl : k = 0 := Nat.succ.inj hk
    rw [later, h, answered_of_leftIdle rfl]
    rfl

/-- A run that ends with its next step is over with the first request. -/
theorem delivers_last (hends : res.EndsRun) (hrest : g.running = false)
    (h : x.nextLive = x.answered (some res, run) g) : x.Delivers [res] g where
  going k hk := by
    rw [answersFor_singleton hends] at hk
    omega
  last k hk := by
    rw [answersFor_singleton hends] at hk
    obtain rfl : k = 0 := Nat.succ.inj hk
    rw [later, h, answered_of_leftIdle (by rw [hrest]; rfl)]
    rfl

/-- **A run that goes on** is delivered by the first answer and by those to come. -/
theorem Delivers.cons (hgoes : ¬res.EndsRun) (hrunning : g'.running = true)
    (h : x.nextLive = x.answered (some res, run) g')
    (hrest : (x.answered (some res, run) g').2.Delivers rest g) : x.Delivers (res :: rest) g where
  going k hk := by
    rw [answersFor_cons hgoes] at hk
    cases k with
    | zero =>
      rw [later, h, step_answered, hrunning]
      rfl
    | succ k =>
      rw [later, h]
      exact hrest.going k (Nat.lt_of_succ_lt_succ hk)
  last k hk := by
    rw [answersFor_cons hgoes] at hk
    cases k with
    | zero =>
      -- an answer is left for the rest, so that this one cannot be the last
      unfold answersFor at hk
      cases rest with
      | nil => cases hk
      | cons next rest =>
        rw [List.length_cons] at hk
        omega
    | succ k =>
      rw [later, h]
      exact hrest.last k (Nat.succ.inj hk)

/-! ### All requests -/

/-- **A session in order delivers what its live run does** for whoever goes on to its end without
pausing, and both come to the same game. -/
theorem InOrder.exists_delivers (h : x.InOrder) (hlive : x.live = some run) (n : Nat)
    (hn : (run.asks x.game.rules.limits).length < n) :
    ∃ reports g, (take Listener.silent (fun _ => pure ()) n ⟨run, []⟩).on ⟨x.game, ()⟩ =
        (.ok reports, ⟨g, ()⟩) ∧ g.running = false ∧ x.Delivers reports g := by
  induction n generalizing x run with
  | zero => exact absurd hn (Nat.not_lt_zero _)
  | succ n ih =>
    obtain ⟨p, ⟨g, _⟩, hon, hnext, hpolled⟩ := h.exists_on_next hlive
    have horder := hpolled.inOrder h
    have hrules := hpolled.rules
    dsimp only at hnext hpolled horder hrules
    cases hpolled with
    | atFlag s resting finished =>
      exact ⟨[], _, on_take_of_none hon, resting, delivers_none hnext⟩
    | next unfinished step =>
      have hbegun := (h.begun unfinished).1
      generalize hmoves : run.asks x.game.rules.limits = moves at step hn
      generalize x.game.begun = g₀ at hbegun step
      cases step with
      | done s => exact ⟨[], _, on_take_of_none hon, rfl, delivers_none hnext⟩
      | @last line d more s hends =>
        have hends' := (World.endsRun_moveReport g₀.world d (run.index + 1) line).mpr hends
        -- whoever goes on without pausing has to ask once more to find that this was all
        obtain ⟨m, rfl⟩ := Nat.exists_eq_succ_of_ne_zero (n := n) (by
          rw [List.length_cons] at hn
          omega)
        refine ⟨[_], _, (on_take_of_some hon).trans ?_, rfl, delivers_last hends' rfl hnext⟩
        rw [on_bind, on_take_of_none (Play.on_pure _ _)]
        rfl
      | @made line d s hends r hid hindex =>
        have hgoes : ¬(g₀.world.moveReport d (run.index + 1) line).EndsRun := by
          rw [World.endsRun_moveReport, hends]
          exact Bool.false_ne_true
        generalize hg : { g₀.moved d with status := s } = g at *
        have hrunning : g.running = true := by
          rw [← hg]
          exact hbegun
        -- both are left with the same run, which is suspended behind this step
        have hafter := x.answered_of_going (g₀.world.moveReport d (run.index + 1) line)
          (.suspended r) hrunning
        rw [hafter] at horder
        obtain ⟨reports, g', hon', hrest, hdelivers⟩ := ih horder rfl (by
          rw [← hrules] at hn
          exact Nat.lt_of_succ_lt_succ hn)
        rw [← hafter] at hdelivers
        refine ⟨_ :: reports, g', (on_take_of_some hon).trans ?_, hrest,
          hdelivers.cons hgoes hrunning hnext⟩
        rw [on_bind, hon']
        rfl

/-- **A session that has taken up a live run delivers it.** -/
theorem exists_delivers_startLive {code : Json} (h : (x.startLive code).1.status = 200) :
    ∃ source reports g, scriptOf? code = some source ∧
      (openLive Listener.silent source >>= fun run => drain Listener.silent ⟨run, []⟩).on
        ⟨x.game, ()⟩ = (.ok reports, ⟨g, ()⟩) ∧
      g.running = false ∧ (x.startLive code).2.Delivers reports g ∧
      (x.startLive code).2.leftIdle g = x.leftIdle g := by
  rcases x.startLive_cases code with hturned | ⟨hidle, -, source, hsource, hblank, heq⟩
  · exact absurd hturned.refused (not_refuses h)
  · have horder := inOrder_taken x source hidle
    obtain ⟨reports, g, hon, hrest, hdelivers⟩ := horder.exists_delivers rfl _ (Nat.lt_succ_self _)
    rw [Run.length_asks] at hon
    rw [heq]
    refine ⟨source, reports, g, hsource, ?_, hrest, hdelivers, rfl⟩
    rw [on_bind, on_openLive hidle hblank]
    dsimp only
    unfold drain
    rw [on_bind, on_game]
    exact hon

namespace Delivers

variable (h : x.Delivers reports g)

include h

theorem later_answersFor : x.later (answersFor reports) = x.leftIdle g := by
  obtain ⟨k, hk⟩ : ∃ k, k + 1 = answersFor reports := by
    unfold answersFor
    split
    · rename_i hends
      obtain ⟨res, hres, -⟩ := hends
      cases reports with
      | nil => cases hres
      | cons first rest => exact ⟨rest.length, rfl⟩
    · exact ⟨reports.length, rfl⟩
  rw [← hk, later_succ, h.last k hk]

/-- **After the last answer there is no live run**, and nothing happens any more. -/
theorem later_eq_leftIdle {k : Nat} (hk : answersFor reports ≤ k) : x.later k = x.leftIdle g := by
  induction k, hk using Nat.le_induction with
  | base => exact h.later_answersFor
  | succ k _ ih => rw [later_succ, ih, nextLive_of_none rfl]

end Delivers

end Session

namespace Server

variable {s : Server} {r : Request} {rs : List Request} {id : String} {x : Session}

/-- What those are answered who ask the session of a name for something. -/
def told (s : Server) (id : String) : List Request → List Answer
  | [] => []
  | r :: rest =>
    let more := (s.answer r).2.told id rest
    if (s.router.errand? r).any (·.1 = id) then (s.answer r).1 :: more else more

/-- A session that is asked for nothing but steps answers one such request after the other,
whatever else the server is asked for. -/
theorem told_of_polled (hx : s.find? id = some x)
    (hrs : ∀ r ∈ rs, ∀ e, s.router.errand? r = some (id, e) → e = .nextLive) :
    (∀ k a, (s.told id rs)[k]? = some a → a = s.router.send (x.later k).nextLive.1) ∧
      (s.answers rs).2.find? id = some (x.later (s.told id rs).length) := by
  induction rs generalizing s x with
  | nil => exact ⟨nofun, hx⟩
  | cons r rs ih =>
    obtain ⟨hr, hrs⟩ := List.forall_mem_cons.mp hrs
    have hanswers : (s.answers (r :: rs)).2 = ((s.answer r).2.answers rs).2 := rfl
    have hrouter := router_answer s r
    rw [hanswers, told]
    rw [← hrouter] at hrs
    split
    · rename_i hasks
      obtain ⟨⟨_, e⟩, herrand, hid⟩ := Option.any_eq_true _ _ |>.mp hasks
      obtain rfl : _ = id := of_decide_eq_true hid
      obtain rfl := hr e herrand
      obtain ⟨hrest, hfound⟩ := ih (find?_answer herrand hx) hrs
      rw [hrouter] at hrest
      rw [answer_of_errand? herrand hx] at *
      refine ⟨fun k a hk => ?_, hfound⟩
      cases k with
      | zero => exact (Option.some_inj.mp hk).symm
      | succ k => exact hrest k a hk
    · rename_i hasks
      rw [← hrouter]
      refine ih (find?_answer_of_ne hx fun e herrand => hasks ?_) hrs
      rw [herrand]
      exact decide_eq_true rfl

/-- **Polling loses nothing and repeats nothing.** A session that takes up a live run is asked for
one step after the other, and for nothing else. It gives the steps that whoever drains the run of
the same script in the same game gets to see, in their order and each of them once. With every
answer before the last it says that there is more to come. That it is over is said with the last
step, if the run ends with that step, and otherwise with one more answer, in which there is no
step. The game is then the one that draining the run leaves, and to ask for more is refused. -/
theorem told_of_startLive {code : Json} (hr : s.router.errand? r = some (id, .startLive code))
    (hx : s.find? id = some x) (haccepted : (s.answer r).1.status = 200) :
    ∃ source reports g, Session.scriptOf? code = some source ∧
      (openLive Listener.silent source >>= fun run => drain Listener.silent ⟨run, []⟩).on
        ⟨x.game, ()⟩ = (.ok reports, ⟨g, ()⟩) ∧
      g.running = false ∧
      ∀ rs : List Request, (∀ q ∈ rs, ∀ e, s.router.errand? q = some (id, e) → e = .nextLive) →
        (∀ k a, ((s.answer r).2.told id rs)[k]? = some a →
          (k + 1 < answersFor reports → a.step =
            (200, some (Json.orNull Report.toJson reports[k]?), some (.truth false))) ∧
          (k + 1 = answersFor reports → a = (x.leftIdle g).lastAnswer reports[k]?) ∧
          (answersFor reports ≤ k → a = Answer.fault "no_live_run")) ∧
        (answersFor reports ≤ ((s.answer r).2.told id rs).length →
          ((s.answer r).2.answers rs).2.find? id = some (x.leftIdle g)) := by
  have hstart : (x.perform (.startLive code)).1.status = 200 := by
    rw [answer_of_errand? hr hx] at haccepted
    exact (Router.status_send_eq_iff (by decide)).mp haccepted
  obtain ⟨source, reports, g, hsource, hdrain, hrest, hdelivers, hidle⟩ :=
    x.exists_delivers_startLive hstart
  refine ⟨source, reports, g, hsource, hdrain, hrest, fun rs hrs => ?_⟩
  rw [← router_answer s r] at hrs
  obtain ⟨htold, hfound⟩ := told_of_polled (find?_answer hr hx) hrs
  refine ⟨fun k a ha => ?_, fun hk => ?_⟩
  · obtain rfl := htold k a ha
    -- no view has failed, so that every answer is sent as it is
    refine ⟨fun hk => ?_, fun hk => ?_, fun hk => ?_⟩
    · have hstep := hdelivers.going k hk
      have hstatus : ((x.startLive code).2.later k).nextLive.1.status = 200 :=
        congrArg Prod.fst hstep
      rw [Session.perform, Router.send_of_ne (by rw [hstatus]; decide), hstep]
    · rw [Session.perform, hdelivers.last k hk, hidle]
      exact Router.send_ok _ _
    · rw [Session.perform, hdelivers.later_eq_leftIdle hk, Session.nextLive_of_none rfl]
      exact Router.send_fault _ _
  · rw [hfound, Session.perform, hdelivers.later_eq_leftIdle hk, hidle]

/-- A server with one session, in which nothing has happened yet. -/
def fresh : Server :=
  (({ settings := {}, nameOf := fun _ => "a" } : Server).answers [posted "/api/session/start"]).2

/-- A client takes up a live run of two moves. -/
def taking : Request :=
  posted "/api/session/live/start" ", \"code\": \"moveRight(); moveRight();\""

/-- The client asks for a step more often than there is one to be had. -/
def polling : List Request := .replicate 4 (posted "/api/session/live/next")

theorem errand?_taking {ρ : Router} :
    ρ.errand? taking = some ("a", .startLive (.text "moveRight(); moveRight();")) := by
  have hdecode : Text.decode taking.body = some
      ("\x7b\"session_id\": \"a\", \"code\": \"moveRight(); moveRight();\"\x7d".toList.map
        .char) := by
    decide +kernel
  exact errand?_posted .liveStart rfl hdecode (by cbv) rfl rfl

/-- Two moves take three answers, and the fourth request is refused. -/
theorem told_of_startLive_twoMoves :
    ∃ x reports g, fresh.find? "a" = some x ∧ (fresh.answer taking).1.status = 200 ∧
      (openLive Listener.silent "moveRight(); moveRight();" >>= fun run =>
        drain Listener.silent ⟨run, []⟩).on ⟨x.game, ()⟩ = (.ok reports, ⟨g, ()⟩) ∧
      ((fresh.answer taking).2.told "a" polling).map Answer.status = [200, 200, 200, 400] ∧
      answersFor reports = 3 ∧
      ((fresh.answer taking).2.answers polling).2.find? "a" = some (x.leftIdle g) := by
  have haccepted : (fresh.answer taking).1.status = 200 := by decide +kernel
  have hstatus : ((fresh.answer taking).2.told "a" polling).map Answer.status =
      [200, 200, 200, 400] := by decide +kernel
  have hlength : ((fresh.answer taking).2.told "a" polling).length = 4 := by
    rw [← List.length_map Answer.status, hstatus]
    rfl
  have hpolls : ∀ q ∈ polling, ∀ e, fresh.router.errand? q = some ("a", e) → e = .nextLive := by
    intro q hq e he
    obtain rfl := List.eq_of_mem_replicate hq
    have hnext : fresh.router.errand? (posted "/api/session/live/next") = some ("a", .nextLive) :=
      errand?_posted_alone .liveNext rfl rfl
    cases hnext.symm.trans he
    rfl
  obtain ⟨x, hx⟩ : ∃ x, fresh.find? "a" = some x :=
    Option.isSome_iff_exists.mp (by decide +kernel)
  obtain ⟨source, reports, g, hsource, hdrain, -, hall⟩ :=
    told_of_startLive errand?_taking hx haccepted
  obtain rfl : "moveRight(); moveRight();" = source :=
    (Text.packed_letters (by decide)).symm.trans (Option.some_inj.mp hsource)
  obtain ⟨htold, hidle⟩ := hall polling hpolls
  have hat : ∀ k : Nat, ([200, 200, 200, 400] : List Nat)[k]? =
      ((fresh.answer taking).2.told "a" polling)[k]?.map Answer.status := by
    intro k
    rw [← hstatus, List.getElem?_map]
  have hthird : answersFor reports = 3 := by
    obtain ⟨a, ha, hstatus₂⟩ := Option.map_eq_some_iff.mp (hat 2).symm
    obtain ⟨b, hb, hstatus₃⟩ := Option.map_eq_some_iff.mp (hat 3).symm
    refine Nat.le_antisymm (Nat.not_lt.mp fun hlt => ?_) (Nat.not_lt.mp fun hlt => ?_)
    · -- the fourth answer would carry a step, or be the last
      rcases Nat.lt_or_eq_of_le hlt with hlt | heq
      · cases (congrArg Prod.fst ((htold 3 b hb).1 hlt)).symm.trans hstatus₃
      · rw [(htold 3 b hb).2.1 heq] at hstatus₃
        cases hstatus₃
    · -- the third answer would be the refusal
      rw [(htold 2 a ha).2.2 (Nat.le_of_lt_succ hlt)] at hstatus₂
      cases hstatus₂
  exact ⟨x, reports, g, hx, haccepted, hdrain, hstatus, hthird, hidle (by omega)⟩

end Server

end Service

end ScriptedMaze
