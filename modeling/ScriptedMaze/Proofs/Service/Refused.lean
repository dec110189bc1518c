import ScriptedMaze.Proofs.Service.Reached

/-!
# Requests that are refused

A request that is refused is meant to change nothing that matters. At most the status of the
session that it names may differ, as the player is told why; the rest of the game, the live run,
and the steps that the live run would make, are the same (`Session.Unharmed`).

A live run only looks at the game but for its status. So two sessions whose games differ in the
status alone, and whose live runs have made as many moves and ask for the same ones, answer the
next requests for a step alike, one after the other (`Session.Alike`).

There is one exception, and it is told exactly (`Server.unharmed_iff_of_refused`): a change to a
maze that does not exist gives up the live run before the name is looked at.
-/

namespace ScriptedMaze

namespace Game

variable {g g' : Game}

theorem SameButStatus.begun (h : SameButStatus g g') : SameButStatus g.begun g'.begun := by
  obtain ⟨s, rfl⟩ := h
  unfold Game.begun
  by_cases hrun : g.running = true
  · rw [if_pos hrun, if_pos hrun]
    exact ⟨s, rfl⟩
  · rw [if_neg hrun, if_neg hrun]
    exact ⟨s, rfl⟩

theorem rules_begun (g : Game) : g.begun.rules = g.rules := by
  unfold Game.begun
  split <;> rfl

end Game

/-- **A request is answered in one way only**, up to the status and to how what is left of the
run has come about. -/
theorem Step.unique {limits : Script.Limits} {id index : Nat} {g g₁ g₂ : Game}
    {moves : List (Option Nat × Direction)} {p q : Option Report × Run}
    (h : Step limits id index g moves p g₁) (h' : Step limits id index g moves q g₂) :
    p.1 = q.1 ∧ Game.SameButStatus g₁ g₂ ∧ p.2.index = q.2.index ∧
      p.2.asks limits = q.2.asks limits := by
  cases h with
  | done s =>
    cases h' with
    | done s' => exact ⟨rfl, ⟨s', rfl⟩, rfl, rfl⟩
  | last s hends =>
    cases h' with
    | last s' _ => exact ⟨rfl, ⟨s', rfl⟩, rfl, rfl⟩
    | made s' hends' _ _ => cases hends.symm.trans hends'
  | @made line d s hends r hid hindex =>
    generalize hmoves : (line, d) :: r.asks limits = moves at h'
    cases h' with
    | done s' => cases hmoves
    | last s' hends' =>
      cases hmoves
      cases hends.symm.trans hends'
    | @made line' d' s' hends' r' hid' hindex' =>
      obtain ⟨hmove, hasks⟩ := List.cons_eq_cons.mp hmoves
      cases hmove
      exact ⟨rfl, ⟨s', rfl⟩, hindex.trans hindex'.symm, hasks⟩

namespace Service

/-- What an answer to a request for a step tells: the status, the step, and whether the run has
ended. -/
def Answer.step (a : Answer) : Nat × Option Json × Option Json :=
  (a.status, a.body.bind (·.get? "step"), a.body.bind (·.get? "done"))

theorem not_refuses {a : Answer} (h : a.status = 200) : ¬a.Refuses := by
  unfold Answer.Refuses
  omega

namespace Session

variable {x y x' : Session} {e : Errand} {a : Answer}

/-- **What the next requests for a step are answered.** -/
def steps (x : Session) : Nat → List (Nat × Option Json × Option Json)
  | 0 => []
  | n + 1 => x.nextLive.1.step :: x.nextLive.2.steps n

/-! ### Sessions that answer alike -/

/-- **Sessions that cannot be told apart** by what their live runs do. -/
structure Alike (x y : Session) : Prop where
  game : x.game.SameButStatus y.game
  live : x.live.map (fun run => (run.index, run.asks x.game.rules.limits)) =
    y.live.map fun run => (run.index, run.asks x.game.rules.limits)

theorem step_answered (x : Session) (p : Option Report × Run) (g : Game) :
    (x.answered p g).1.step =
      (200, some (Json.orNull Report.toJson p.1), some (.truth (p.1.isNone || !g.running))) := by
  simp [answered, Answer.step, Answer.ok, payload, Game.snapshot, Json.get?]

theorem Polled.rules {run : Run} {p : Option Report × Run} {g : Game} (h : x.Polled run p g) :
    g.rules = x.game.rules := by
  cases h with
  | atFlag s _ _ => rfl
  | next _ step =>
    rw [← x.game.rules_begun]
    generalize x.game.begun = g₀, run.asks x.game.rules.limits = moves at step
    cases step <;> rfl

/-- Runs that are alike are answered alike. -/
theorem Polled.unique {run run' : Run} {p q : Option Report × Run} {g g' : Game}
    (h : x.Polled run p g) (h' : y.Polled run' q g') (hgame : x.game.SameButStatus y.game)
    (hindex : run.index = run'.index)
    (hasks : run.asks x.game.rules.limits = run'.asks x.game.rules.limits) :
    p.1 = q.1 ∧ g.SameButStatus g' ∧ p.2.index = q.2.index ∧
      p.2.asks x.game.rules.limits = q.2.asks x.game.rules.limits := by
  have hbegun := hgame.begun
  obtain ⟨s, hs⟩ := hgame
  obtain ⟨s', hs'⟩ := hbegun
  cases h with
  | atFlag s₁ _ finished =>
    cases h' with
    | atFlag s₂ _ _ =>
      rw [hs]
      exact ⟨rfl, ⟨s₂, rfl⟩, rfl, rfl⟩
    | next unfinished _ =>
      rw [hs] at unfinished
      cases finished.symm.trans unfinished
  | next unfinished step =>
    cases h' with
    | atFlag s₂ _ finished =>
      rw [hs] at finished
      cases finished.symm.trans unfinished
    | next _ step' =>
      have hstep := Play.step_of_sameButStatus step' ⟨s', hs'⟩
      rw [hs', hs, ← hindex] at hstep
      dsimp only at hstep
      rw [← hasks] at hstep
      exact step.unique hstep

/-- **Sessions that are alike answer a request for a step alike**, and stay so. -/
theorem Alike.nextLive (h : Alike x y) (hx : x.InOrder) (hy : y.InOrder) :
    x.nextLive.1.step = y.nextLive.1.step ∧ Alike x.nextLive.2 y.nextLive.2 := by
  have hlive := h.live
  cases hxlive : x.live with
  | none =>
    rw [hxlive] at hlive
    have hylive : y.live = none := Option.map_eq_none_iff.mp hlive.symm
    rw [nextLive_of_none hxlive, nextLive_of_none hylive]
    exact ⟨rfl, h⟩
  | some run =>
    rw [hxlive] at hlive
    obtain ⟨run', hylive, heq⟩ := Option.map_eq_some_iff.mp hlive.symm
    obtain ⟨hindex, hasks⟩ := Prod.mk.inj heq
    obtain ⟨p, g, hnext, hp⟩ := hx.exists_nextLive hxlive
    obtain ⟨q, g', hnext', hq⟩ := hy.exists_nextLive hylive
    obtain ⟨hreport, hsame, hindex', hasks'⟩ := hp.unique hq h.game hindex.symm hasks.symm
    have hrunning : g'.running = g.running := by
      obtain ⟨s, rfl⟩ := hsame
      rfl
    rw [hnext, hnext', step_answered, step_answered, hreport, hrunning]
    refine ⟨rfl, hsame, ?_⟩
    unfold answered
    dsimp only
    rw [hreport, hrunning, hp.rules]
    split
    · rfl
    · rw [Option.map_some, Option.map_some, hindex', hasks']

/-- **Sessions that are alike answer all further requests for steps alike.** -/
theorem Alike.steps (h : Alike x y) (hx : x.InOrder) (hy : y.InOrder) (n : Nat) :
    x.steps n = y.steps n := by
  induction n generalizing x y with
  | zero => rfl
  | succ n ih =>
    obtain ⟨hstep, hnext⟩ := h.nextLive hx hy
    rw [Session.steps, Session.steps, hstep,
      ih hnext ((hx.performed .nextLive).inOrder hx) ((hy.performed .nextLive).inOrder hy)]

/-! ### Sessions that are left in peace -/

/-- **Nothing that matters has become of a session**: the status may differ, but nothing else in
the game, nor the live run, nor what it is going to do. -/
structure Unharmed (x x' : Session) : Prop where
  game : x.game.SameButStatus x'.game
  live : x'.live = x.live
  steps : ∀ n, x'.steps n = x.steps n

theorem Unharmed.of_sameButStatus (hx : x.InOrder) (hx' : x'.InOrder)
    (hgame : x.game.SameButStatus x'.game) (hlive : x'.live = x.live) : x.Unharmed x' where
  game := hgame
  live := hlive
  steps n := ((Alike.mk hgame (by rw [hlive])).steps hx hx' n).symm

/-- **What is refused does no harm**, except where a maze is asked for and there is a live run. -/
theorem Performed.unharmed (h : x.Performed e a x') (hx : x.InOrder) (ha : a.Refuses)
    (hlive : (∃ name, e = .setDifficulty name) → x.live = none) : x.Unharmed x' := by
  have hx' := h.inOrder hx
  cases h with
  | rejected _ turned =>
    obtain ⟨s, rfl⟩ := turned.told
    exact .of_sameButStatus hx hx' ⟨s, rfl⟩ rfl
  | absent _ _ _ => exact .of_sameButStatus hx hx' (refl_of Game.SameButStatus x.game) rfl
  | @dropped name _ _ =>
    have hclose : x.closeLive = x := by
      unfold closeLive
      rw [hlive ⟨name, rfl⟩]
    rw [hclose]
    exact .of_sameButStatus hx hx (refl_of Game.SameButStatus x.game) rfl
  | started m s _ status => exact absurd ha (not_refuses status)
  | played status _ _ => exact absurd ha (not_refuses status)
  | taken source status _ => exact absurd ha (not_refuses status)
  | polled _ _ => exact absurd ha (not_refuses rfl)
  | stopped c p s _ status => exact absurd ha (not_refuses status)

/-- **A change to a maze that does not exist gives up the live run.** -/
theorem Performed.eq_closeLive {name : Json} (h : x.Performed (.setDifficulty name) a x')
    (ha : a.Refuses) : x' = x.closeLive := by
  cases h with
  | rejected script _ => exact script.elim
  | absent asks _ _ =>
    rcases asks with hne | hne
    · cases hne
    · cases hne
  | dropped _ => rfl
  | started m s _ status => exact absurd ha (not_refuses status)

theorem live_closeLive (x : Session) : x.closeLive.live = none := by
  unfold closeLive
  split
  · assumption
  · rfl

end Session

namespace Server

variable {s : Server} {r : Request} {id : String} {x : Session}

/-- **A session that is not asked for anything is left as it is.** -/
theorem find?_answer_of_ne (hx : s.find? id = some x) (hr : ∀ e, s.router.errand? r ≠ some (id, e)) :
    (s.answer r).2.find? id = some x := by
  have hanswered := s.answered r
  generalize s.answer r = p at hanswered ⊢
  obtain ⟨a, s'⟩ := p
  cases hanswered with
  | kept _ => exact hx
  | @shown y _ found =>
    refine (find?_update found id).trans ?_
    split
    · rename_i hid
      rw [hid, found] at hx
      exact hx
    · exact hx
  | @started y _ _ _ _ _ _ =>
    unfold find? at hx ⊢
    dsimp only
    rw [List.find?_append, hx, Option.some_or]
  | @asked name e y asks found =>
    have hname : (y.perform e).2.id = name := (y.id_perform e).trans (id_eq_of_find? found)
    have hne : id ≠ name := by
      rintro rfl
      exact hr e asks
    refine (find?_update (by rw [hname]; exact found) id).trans ?_
    rw [if_neg (by rw [hname]; exact hne)]
    exact hx

/-- A request that is refused starts no session. -/
theorem map_id_answer (ha : (s.answer r).1.Refuses) :
    (s.answer r).2.sessions.map Session.id = s.sessions.map Session.id := by
  have hanswered := s.answered r
  generalize s.answer r = p at hanswered ha ⊢
  obtain ⟨a, s'⟩ := p
  cases hanswered with
  | kept _ => rfl
  | shown _ _ => exact map_id_update s _
  | started _ _ status _ _ => exact absurd ha (not_refuses status)
  | asked _ _ => exact map_id_update s _

/-- **A request that is refused changes nothing that matters**, but for one case. No session is
added, and those that the request does not name are as they were. The one that it names is
unharmed exactly unless it is asked for another maze and has a live run; the live run is then
given up. -/
theorem unharmed_iff_of_refused (h : s.Reached) (ha : (s.answer r).1.Refuses) :
    (s.answer r).2.sessions.map Session.id = s.sessions.map Session.id ∧
      ∀ id x, s.find? id = some x → ∃ x', (s.answer r).2.find? id = some x' ∧
        ((∀ e, s.router.errand? r ≠ some (id, e)) → x' = x) ∧
        (x.Unharmed x' ↔
          ¬((∃ name, s.router.errand? r = some (id, .setDifficulty name)) ∧ x.live ≠ none)) ∧
        ((∃ name, s.router.errand? r = some (id, .setDifficulty name)) → x' = x.closeLive) := by
  refine ⟨map_id_answer ha, fun id x hx => ?_⟩
  have horder := h.inOrder_of_find? hx
  by_cases hr : ∃ e, s.router.errand? r = some (id, e)
  · obtain ⟨e, hr⟩ := hr
    have hperformed := horder.performed e
    rw [answer_of_errand? hr hx] at ha
    have ha : (x.perform e).1.Refuses := Router.refuses_send.mp ha
    have hclosed : (∃ name, s.router.errand? r = some (id, .setDifficulty name)) →
        (x.perform e).2 = x.closeLive := by
      rintro ⟨name, hname⟩
      cases hr.symm.trans hname
      exact hperformed.eq_closeLive ha
    refine ⟨_, find?_answer hr hx, fun hne => absurd hr (hne e), ?_, hclosed⟩
    constructor
    · rintro hunharmed ⟨hname, hlive⟩
      have hkept := hunharmed.live
      rw [hclosed hname, x.live_closeLive] at hkept
      exact hlive hkept.symm
    · intro hfree
      refine hperformed.unharmed horder ha ?_
      rintro ⟨name, rfl⟩
      exact of_not_not fun hlive => hfree ⟨⟨name, hr⟩, hlive⟩
  · have hne : ∀ e, s.router.errand? r ≠ some (id, e) := fun e he => hr ⟨e, he⟩
    refine ⟨x, find?_answer_of_ne hx hne, fun _ => rfl, ?_, ?_⟩
    · refine iff_of_true ?_ ?_
      · exact .of_sameButStatus horder horder (refl_of Game.SameButStatus x.game) rfl
      · rintro ⟨⟨name, hname⟩, -⟩
        exact hne _ hname
    · rintro ⟨name, hname⟩
      exact absurd hname (hne _)

/-- A script that is turned down halfway through a live run leaves the live run and the game. -/
theorem unharmed_iff_of_refused_halfway :
    ∃ x x', halfway.find? "a" = some x ∧
      (halfway.answer (posted "/api/session/run" ", \"code\": \"moveLeft();\"")).1.status = 409 ∧
      (halfway.answer (posted "/api/session/run" ", \"code\": \"moveLeft();\"")).2.find? "a" =
        some x' ∧
      x.Unharmed x' ∧ x'.live ≠ none := by
  have hbusy : (halfway.answer (posted "/api/session/run" ", \"code\": \"moveLeft();\"")).1.status =
      409 := by decide +kernel
  obtain ⟨x, hx, hrunning, hlive⟩ := exists_halfway
  obtain ⟨-, hall⟩ := unharmed_iff_of_refused reached_halfway (.inr (.inl hbusy))
  obtain ⟨x', hx', -, hunharmed, -⟩ := hall "a" x hx
  have hkept := hunharmed.mpr (by
    rintro ⟨⟨name, hname⟩, -⟩
    cases errand?_posted_run.symm.trans hname)
  exact ⟨x, x', hx, hbusy, hx', hkept, by rw [hkept.live]; exact hlive⟩

/-- **A refused change of the maze does harm**: there is no such maze, and yet the live run is
gone, and nobody owns the game. -/
theorem not_unharmed_of_refused :
    ∃ x x', halfway.find? "a" = some x ∧
      (halfway.answer (posted "/api/session/difficulty" ", \"difficulty\": \"nope\"")).1.status =
        400 ∧
      (halfway.answer (posted "/api/session/difficulty" ", \"difficulty\": \"nope\"")).2.find? "a" =
        some x' ∧
      x.live ≠ none ∧ x'.live = none ∧ x.game.running = true ∧ x'.game.running = false ∧
      x.game.phase = .running ∧ x'.game.phase = .cancelled := by
  have hbefore : (halfway.find? "a").any (fun x =>
      x.live.isSome && x.game.running && x.game.phase = .running) = true := by decide +kernel
  have hafter : ((halfway.answer
      (posted "/api/session/difficulty" ", \"difficulty\": \"nope\"")).2.find? "a").any (fun x =>
      x.live.isNone && !x.game.running && x.game.phase = .cancelled) = true := by decide +kernel
  obtain ⟨x, hx, hprop⟩ := Option.any_eq_true _ _ |>.mp hbefore
  obtain ⟨x', hx', hprop'⟩ := Option.any_eq_true _ _ |>.mp hafter
  simp only [Bool.and_eq_true, decide_eq_true_eq, Bool.not_eq_true', Option.isNone_iff_eq_none,
    Option.isSome_iff_ne_none] at hprop hprop'
  obtain ⟨⟨hlive, hrunning⟩, hphase⟩ := hprop
  obtain ⟨⟨hlive', hrunning'⟩, hphase'⟩ := hprop'
  exact ⟨x, x', hx, by decide +kernel, hx', hlive, hlive', hrunning, hrunning', hphase, hphase'⟩

end Server

end Service

end ScriptedMaze
