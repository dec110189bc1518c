import ScriptedMaze.Proofs.Play.Undisturbed
import ScriptedMaze.Service.Session

/-!
# What a session is asked for, and what comes of it

Besides the game a session keeps the handle of a live run, and the two are written apart. They
agree nevertheless, as a session is always **in order** (`Session.InOrder`): it has one of three
shapes. There is no live run, or there is one that was not begun, and in both cases no run owns
the game; or the live run is suspended and owns the game.

A client can ask for six things besides being shown something (`Errand`). What comes of each is
said once, in `Session.Performed`, which says everything that a session in order can do
(`Session.InOrder.performed`); that it stays in order is read off from there
(`Session.Performed.inOrder`). Nobody listens to the game of a session, and so a live run is
followed from request to request by `ScriptedMaze.Step` (`Session.Polled`).

Only one errand does something that cannot be taken for granted: a change to a maze that does
not exist is refused, but the live run has been given up before (`Session.Performed.dropped`).
-/

namespace ScriptedMaze

/-- The moves that a run has made. -/
def Run.index : Run → Nat
  | suspended r => r.index
  | _ => 0

/-- The game as a run has it that is asked for a step: its own already, or taken now. -/
def Game.begun (g : Game) : Game := if g.running = true then g else g.taken

/-- A request that is answered has ended the run, which then owns the game no more; or the run
goes on and has the game under the same number. -/
theorem Step.ended_or_going {limits : Script.Limits} {id index : Nat} {g g' : Game}
    {moves : List (Option Nat × Direction)} {p : Option Report × Run}
    (h : Step limits id index g moves p g') (hfin : g.world.finished = false) :
    p.2 = .ended ∧ g'.running = false ∨
      ∃ res r, p = (some res, .suspended r) ∧ r.runId = id ∧ g'.runId = g.runId ∧
        g'.running = g.running ∧ g'.cancelled = g.cancelled ∧ g'.world.finished = false := by
  cases h with
  | done s => exact .inl ⟨rfl, rfl⟩
  | last s hends => exact .inl ⟨rfl, rfl⟩
  | made s hends hid hindex =>
    exact .inr ⟨_, _, rfl, hid, rfl, rfl, rfl, World.finished_move_of_not_ends hfin hends⟩

namespace Service

open Play

/-- What was asked for is refused, or could not be done. -/
def Answer.Refuses (a : Answer) : Prop := a.status = 400 ∨ a.status = 409 ∨ 500 ≤ a.status

/-- What a client asks a session for, other than to be shown something. -/
inductive Errand where
  | reset
  | setDifficulty (name : Json)
  | run (code : Json)
  | startLive (code : Json)
  | nextLive
  | stopLive

namespace Errand

/-- A script comes with the errand. -/
def HasScript : Errand → Prop
  | run _ => True
  | startLive _ => True
  | _ => False

/-- The errand is meant to leave no live run. -/
def EndsLive : Errand → Prop
  | reset => True
  | setDifficulty _ => True
  | stopLive => True
  | _ => False

end Errand

namespace Session

variable {x : Session} {α : Type} {act : Play Unit α}

/-- Does what a client asks for. -/
def perform (x : Session) : Errand → Answer × Session
  | .reset => x.reset
  | .setDifficulty name => x.setDifficulty name
  | .run code => x.run code
  | .startLive code => x.startLive code
  | .nextLive => x.nextLive
  | .stopLive => x.stopLive

/-! ### Sessions in order -/

/-- **The shapes of a session.** -/
inductive Shape (x : Session) : Prop
  /-- There is no live run, and no run owns the game. -/
  | idle (live : x.live = none) (resting : x.game.running = false)
  /-- The live run was not begun, and no run owns the game. -/
  | unbegun {run : Run} (live : x.live = some run) (unstarted : ¬run.Started)
      (resting : x.game.running = false)
  /-- The live run is suspended, and it owns the game. -/
  | underway {r : Replay} (live : x.live = some (.suspended r)) (owner : x.game.runId = r.runId)
      (running : x.game.running = true)

/-- **A session in order.** The run that owns the game has not been told to stop, and it has not
come to a flag. -/
structure InOrder (x : Session) : Prop where
  shape : x.Shape
  going : x.game.running = true → x.game.cancelled = false ∧ x.game.world.finished = false

theorem InOrder.of_idle (hlive : x.live = none) (hidle : x.game.running = false) : x.InOrder where
  shape := .idle hlive hidle
  going hrun := by cases hrun.symm.trans hidle

/-- A live run that has just been taken up was not begun. -/
theorem inOrder_taken (x : Session) (source : String) (hidle : x.game.running = false) :
    ({ x with live := some (.live source) } : Session).InOrder where
  shape := .unbegun rfl not_false hidle
  going hrun := by cases hrun.symm.trans hidle

theorem Shape.live_of_running (h : x.Shape) (hrun : x.game.running = true) :
    ∃ r, x.live = some (.suspended r) ∧ x.game.runId = r.runId := by
  cases h with
  | idle _ resting => cases hrun.symm.trans resting
  | unbegun _ _ resting => cases hrun.symm.trans resting
  | underway live owner _ => exact ⟨_, live, owner⟩

/-! ### Playing -/

theorem play_of_on {result : Except GameFault α} {t : Table Unit}
    (h : act.on ⟨x.game, ()⟩ = (result, t)) : x.play act = (result, { x with game := t.game }) := by
  unfold play
  rw [h]

theorem exists_play_of_succeeds {Q : α → Game → Prop}
    (h : Succeeds act ⟨x.game, ()⟩ fun a t => Q a t.game) :
    ∃ a g, x.play act = (.ok a, { x with game := g }) ∧ Q a g := by
  obtain ⟨a, t, hon, hq⟩ := h
  exact ⟨a, t.game, play_of_on hon, hq⟩

/-- **The live run is given up**, and so is the game if the run owned it. -/
theorem InOrder.closeLive_eq (h : x.InOrder) :
    x.closeLive =
      { x with
        game := { x.game with
          running := false
          phase := if x.game.running = true then .cancelled else x.game.phase }
        live := none } := by
  unfold closeLive
  cases h.shape with
  | idle live resting =>
    rw [live]
    dsimp only
    rw [resting, if_neg Bool.false_ne_true, ← resting, ← live]
  | @unbegun run live unstarted resting =>
    rw [live]
    dsimp only
    rw [resting, if_neg Bool.false_ne_true, ← resting]
    cases run with
    | batch ds => rfl
    | live source => rfl
    | suspended r => exact absurd trivial unstarted
    | ended => exact absurd trivial unstarted
  | @underway r live owner running =>
    have hreleased : x.game.released r.runId =
        { x.game with running := false, phase := .cancelled } := if_pos ⟨owner, running⟩
    rw [live]
    dsimp only
    rw [close, play_of_on (on_release r.runId _), if_pos running]
    dsimp only
    rw [hreleased]

/-! ### Starting over -/

/-- A session in which a maze has just been started. -/
def opened (x : Session) (m : Maze) (s : Status) : Session :=
  { x with
    game := { ({ x.game with maze := m } : Game).restarted with status := s }
    live := none }

theorem inOrder_opened (x : Session) (m : Maze) (s : Status) : (x.opened m s).InOrder :=
  .of_idle rfl rfl

theorem InOrder.exists_reset (h : x.InOrder) :
    ∃ s, x.reset = (.ok (x.opened x.game.maze s).payload, x.opened x.game.maze s) := by
  obtain ⟨_, g, hplay, s, rfl⟩ := exists_play_of_succeeds (x := x.closeLive)
    (succeeds_reset Listener.passive_silent _)
  refine ⟨s, ?_⟩
  unfold reset
  rw [hplay, h.closeLive_eq]
  rfl

/-- A change to another maze is made, or it is refused. -/
theorem InOrder.setDifficulty_cases (h : x.InOrder) (name : Json) :
    (∃ m s, x.setDifficulty name = (.ok (x.opened m s).payload, x.opened m s)) ∨
      ∃ a, (a.status = 400 ∨ a.status = 500) ∧ x.setDifficulty name = (a, x.closeLive) := by
  unfold setDifficulty
  dsimp only
  split
  · rename_i name
    cases hm : Maze.named name with
    | ok m =>
      obtain ⟨_, g, hplay, s, rfl⟩ := exists_play_of_succeeds (x := x.closeLive)
        (succeeds_setDifficulty Listener.passive_silent _ hm)
      refine .inl ⟨m, s, ?_⟩
      rw [hplay, h.closeLive_eq]
      rfl
    | error f =>
      rw [play_of_on (on_setDifficulty_of_error _ hm)]
      exact .inr ⟨_, .inl rfl, rfl⟩
  · exact .inr ⟨_, .inr rfl, rfl⟩
  · exact .inr ⟨_, .inr rfl, rfl⟩
  · exact .inr ⟨_, .inl rfl, rfl⟩

/-! ### Handing in a script -/

/-- **A script is turned down**: because a run owns the game, and then nothing happens, or for
another reason, of which the player may be told. -/
structure TurnedDown (x : Session) (a : Answer) (x' : Session) : Prop where
  refused : a.Refuses
  busy : a.status = 409 ↔ x.game.running = true
  told : ∃ s, x' = { x with game := { x.game with status := s } }

theorem turnedDown_busy (hrun : x.game.running = true) :
    x.TurnedDown (Refusal.game .busy).answer x where
  refused := .inr (.inl rfl)
  busy := iff_of_true rfl hrun
  told := ⟨x.game.status, rfl⟩

theorem turnedDown_of_sameButStatus {a : Answer} {g : Game} (hidle : x.game.running = false)
    (ha : a.status = 400 ∨ a.status = 500) (hg : x.game.SameButStatus g) :
    x.TurnedDown a { x with game := g } where
  refused := ha.imp_right fun h => .inr h.ge
  busy := iff_of_false (by omega) (by simp [hidle])
  told := by
    obtain ⟨s, rfl⟩ := hg
    exact ⟨s, rfl⟩

/-- A script that is opened as a whole is played to its end. -/
theorem succeeds_batch {t : Table Unit} (hidle : t.game.running = false) {source : String}
    {ds : List Direction} (hds : Script.commands t.game.rules.limits source = .ok ds) :
    Succeeds (openBatch Listener.silent source >>= fun run => drain Listener.silent ⟨run, []⟩) t
      fun _ t' => t'.game.running = false := by
  cases hfin : t.game.world.finished with
  | true =>
    refine (succeeds_openBatch Listener.passive_silent hidle hds).bind ?_
    rintro _ t' ⟨rfl, s, hs⟩
    have hdrain := succeeds_drain_of_finished Listener.passive_silent (t := t')
      (by rw [hs]; exact hidle) (by rw [hs]; exact hfin)
      (show ¬(Run.batch ds).Started from not_false)
    refine hdrain.mono ?_
    rintro _ t'' ⟨-, s', hs'⟩
    rw [hs', hs]
    exact hidle
  | false =>
    refine (replayed_openBatch Listener.passive_silent hidle hfin hds).mono fun _ t' h => ?_
    obtain ⟨s, hs⟩ := h.game
    rw [hs]

/-- Where the reading of a script comes to its end, playing it through is to open it and to make
all steps. -/
theorem on_playThrough_of_some {t : Table Unit} {source : String}
    {result : Except Script.Fault (List Direction)}
    (h : Script.commands? t.game.rules.limits source = some result) :
    (playThrough source).on t =
      ((openBatch Listener.silent source >>= fun run => drain Listener.silent ⟨run, []⟩) >>=
        fun reports => pure (some reports)).on t := by
  unfold playThrough
  rw [on_bind, on_openBatch?_of_some h, on_bind, on_bind, on_bind]
  obtain ⟨_ | run, t'⟩ := (openBatch Listener.silent source).on t
  · rfl
  · exact on_bind _ _ t'

/-- Otherwise it goes no further than to be announced. -/
theorem on_playThrough_of_none {t : Table Unit} {source : String}
    (h : Script.commands? t.game.rules.limits source = none) :
    (playThrough source).on t = (announceReading Listener.silent >>= fun _ => pure none).on t := by
  unfold playThrough
  rw [on_bind, on_openBatch?_of_none h, on_bind, on_bind]
  obtain ⟨_ | _, t'⟩ := (announceReading Listener.silent).on t <;> rfl

theorem on_playThrough_of_running {t : Table Unit} (source : String)
    (hrun : t.game.running = true) : (playThrough source).on t = (.error .busy, t) := by
  cases hread : Script.commands? t.game.rules.limits source with
  | some result =>
    rw [on_playThrough_of_some hread, on_bind, on_bind, on_openBatch_of_running source hrun]
  | none => rw [on_playThrough_of_none hread, on_bind, on_announceReading_of_running hrun]

theorem run_cases (x : Session) (code : Json) :
    x.TurnedDown (x.run code).1 (x.run code).2 ∨
      x.game.running = false ∧ (x.run code).1.status = 200 ∧
        ∃ g, g.running = false ∧ (x.run code).2 = { x with game := g } := by
  unfold run
  cases hrun : x.game.running with
  | true =>
    refine .inl ?_
    split
    · rename_i source _
      rw [play_of_on (on_playThrough_of_running source hrun)]
      exact turnedDown_busy hrun
    · rw [play_of_on (on_announceReading_of_running hrun)]
      exact turnedDown_busy hrun
  | false =>
    have hannounced := succeeds_announceReading Listener.passive_silent (t := ⟨x.game, ()⟩) hrun
    split
    · rename_i source _
      cases hread : Script.commands? x.game.rules.limits source with
      | none =>
        obtain ⟨_, t', hon, hsame⟩ := hannounced
        have hon' : (playThrough source).on ⟨x.game, ()⟩ = (.ok none, t') := by
          rw [on_playThrough_of_none hread, on_bind, hon]
          rfl
        rw [play_of_on hon']
        exact .inl (turnedDown_of_sameButStatus hrun (.inr rfl) hsame)
      | some result =>
        have hcommands := Script.commands_of_commands? hread
        have hthrough := on_playThrough_of_some (t := ⟨x.game, ()⟩) hread
        cases result with
        | ok ds =>
          obtain ⟨reports, t', hon, hidle⟩ := succeeds_batch (t := ⟨x.game, ()⟩) hrun hcommands
          rw [on_bind, hon] at hthrough
          rw [play_of_on hthrough]
          exact .inr ⟨rfl, rfl, t'.game, hidle, rfl⟩
        | error f =>
          obtain ⟨t', hopen, hsame⟩ :=
            exists_on_openBatch_of_error Listener.passive_silent (t := ⟨x.game, ()⟩) hrun hcommands
          rw [on_bind, on_bind, hopen] at hthrough
          rw [play_of_on hthrough]
          exact .inl (turnedDown_of_sameButStatus hrun (.inl rfl) hsame)
    · obtain ⟨_, g, hplay, hg⟩ := exists_play_of_succeeds hannounced
      rw [hplay]
      exact .inl (turnedDown_of_sameButStatus hrun (.inr rfl) hg)

theorem startLive_cases (x : Session) (code : Json) :
    x.TurnedDown (x.startLive code).1 (x.startLive code).2 ∨
      x.game.running = false ∧ (x.startLive code).1.status = 200 ∧
        ∃ source, scriptOf? code = some source ∧ Text.blank source = false ∧
          (x.startLive code).2 = { x with live := some (.live source) } := by
  unfold startLive
  cases hrun : x.game.running with
  | true =>
    refine .inl ?_
    split
    · rename_i source _
      rw [play_of_on (on_openLive_of_running source hrun)]
      exact turnedDown_busy hrun
    · exact turnedDown_busy hrun
  | false =>
    split
    · rename_i source hsource
      cases hblank : Text.blank source with
      | true =>
        obtain ⟨t', hopen, hsame⟩ :=
          exists_on_openLive_of_blank Listener.passive_silent (t := ⟨x.game, ()⟩) hrun hblank
        rw [play_of_on hopen]
        exact .inl (turnedDown_of_sameButStatus hrun (.inl rfl) hsame)
      | false =>
        rw [play_of_on (on_openLive hrun hblank)]
        exact .inr ⟨rfl, rfl, source, hsource, hblank, rfl⟩
    · exact .inl (turnedDown_of_sameButStatus hrun (.inr rfl) (refl_of Game.SameButStatus x.game))

/-! ### Asking a live run for a step -/

/-- The answer to a request for a step, and the session afterwards: a run that has ended is
given up. -/
def answered (x : Session) (p : Option Report × Run) (g : Game) : Answer × Session :=
  let done := p.1.isNone || !g.running
  let x' : Session := { x with game := g, live := if done then none else some p.2 }
  (.ok (x'.payload [("step", Json.orNull Report.toJson p.1), ("done", .truth done)]), x')

/-- **What comes of asking a live run for a step.** -/
inductive Polled (x : Session) (run : Run) : Option Report × Run → Game → Prop
  /-- The run does not begin where the flag has been reached. -/
  | atFlag (s : Status) (resting : x.game.running = false)
      (finished : x.game.world.finished = true) :
      Polled x run (none, .ended) { x.game with status := s }
  /-- The run does the next of what it asks for. -/
  | next {p : Option Report × Run} {g : Game} (unfinished : x.game.world.finished = false)
      (step : Step x.game.rules.limits x.game.begun.runId run.index x.game.begun
        (run.asks x.game.rules.limits) p g) :
      Polled x run p g

theorem nextLive_of_none (h : x.live = none) : x.nextLive = (Answer.fault "no_live_run", x) := by
  unfold nextLive
  rw [h]

theorem nextLive_of_on {run : Run} (hlive : x.live = some run) {p : Option Report × Run}
    {t : Table Unit} (hon : (next Listener.silent run).on ⟨x.game, ()⟩ = (.ok p, t))
    (hend : (p.1.isNone || !t.game.running) = true → p.2 = .ended) :
    x.nextLive = x.answered p t.game := by
  obtain ⟨report?, run'⟩ := p
  unfold nextLive answered
  rw [hlive]
  dsimp only
  rw [play_of_on hon]
  dsimp only at hend ⊢
  cases hdone : report?.isNone || !t.game.running with
  | false => rfl
  | true =>
    rw [hend hdone]
    rfl

/-- A live run that is asked for a step has the game, and is not told to stop. -/
theorem InOrder.begun (h : x.InOrder) (hfin : x.game.world.finished = false) :
    x.game.begun.running = true ∧ x.game.begun.cancelled = false ∧
      x.game.begun.world.finished = false := by
  unfold Game.begun
  split
  · rename_i hrun
    exact ⟨hrun, (h.going hrun).1, hfin⟩
  · exact ⟨rfl, rfl, hfin⟩

/-- A live run does the next of what it asks for, whether it was begun or not. -/
theorem InOrder.step_next (h : x.InOrder) {run : Run} (hlive : x.live = some run)
    (hfin : x.game.world.finished = false) :
    Succeeds (next Listener.silent run) ⟨x.game, ()⟩ fun p t =>
      Step x.game.rules.limits x.game.begun.runId run.index x.game.begun
        (run.asks x.game.rules.limits) p t.game := by
  have htell := (Listener.passive_silent (σ := Unit)).staysWithin
  cases h.shape with
  | idle live _ => cases hlive.symm.trans live
  | @unbegun run' live unstarted resting =>
    obtain rfl : run = run' := Option.some_inj.mp (hlive.symm.trans live)
    have hbegun : x.game.begun = x.game.taken := if_neg (by simp [resting])
    have hindex : run.index = 0 := by
      cases run with
      | batch ds => rfl
      | live source => rfl
      | suspended r => exact absurd trivial unstarted
      | ended => rfl
    rw [hbegun, hindex]
    exact (step_begun htell (t := ⟨x.game, ()⟩) trivial resting hfin unstarted).mono
      fun _ _ h' => h'.2
  | @underway r live owner running =>
    obtain rfl : run = .suspended r := Option.some_inj.mp (hlive.symm.trans live)
    have hbegun : x.game.begun = x.game := if_pos running
    rw [hbegun, owner]
    exact (step_suspended htell (t := ⟨x.game, ()⟩) trivial owner (h.going running).1 hfin rfl).mono
      fun _ _ h' => h'.2

/-- **A live run that is asked for a step gives the session its answer.** -/
theorem InOrder.exists_on_next (h : x.InOrder) {run : Run} (hlive : x.live = some run) :
    ∃ p t, (next Listener.silent run).on ⟨x.game, ()⟩ = (.ok p, t) ∧
      x.nextLive = x.answered p t.game ∧ x.Polled run p t.game := by
  cases hfin : x.game.world.finished with
  | true =>
    cases h.shape with
    | idle live _ => cases hlive.symm.trans live
    | underway _ _ running => cases hfin.symm.trans (h.going running).2
    | @unbegun run' live unstarted resting =>
      obtain rfl : run = run' := Option.some_inj.mp (hlive.symm.trans live)
      obtain ⟨_, t, hon, rfl, s, hs⟩ :=
        succeeds_next_of_finished Listener.passive_silent (t := ⟨x.game, ()⟩) resting hfin unstarted
      refine ⟨_, _, hon, nextLive_of_on hlive hon fun _ => rfl, ?_⟩
      rw [hs]
      exact .atFlag s resting hfin
  | false =>
    obtain ⟨hrun, -, hfin'⟩ := h.begun hfin
    obtain ⟨p, t, hon, hstep⟩ := h.step_next hlive hfin
    refine ⟨p, t, hon, nextLive_of_on hlive hon fun hdone => ?_, .next hfin hstep⟩
    rcases hstep.ended_or_going hfin' with ⟨hended, -⟩ | ⟨res, r, rfl, -, -, hrun', -⟩
    · exact hended
    · rw [hrun', hrun] at hdone
      cases hdone

/-- **A session in order answers a request for a step.** -/
theorem InOrder.exists_nextLive (h : x.InOrder) {run : Run} (hlive : x.live = some run) :
    ∃ p g, x.nextLive = x.answered p g ∧ x.Polled run p g := by
  obtain ⟨p, t, -, hnext⟩ := h.exists_on_next hlive
  exact ⟨p, t.game, hnext⟩

theorem Polled.inOrder {run : Run} {p : Option Report × Run} {g : Game} (h : x.Polled run p g)
    (hx : x.InOrder) : (x.answered p g).2.InOrder := by
  cases h with
  | atFlag s resting finished => exact .of_idle rfl resting
  | next unfinished step =>
    obtain ⟨hrun, hc, hfin⟩ := hx.begun unfinished
    rcases step.ended_or_going hfin with ⟨-, hrest⟩ | ⟨res, r, rfl, hid, hid', hrun', hc', hfin'⟩
    · refine .of_idle ?_ hrest
      unfold answered
      dsimp only
      rw [hrest, Bool.not_false, Bool.or_true, if_pos rfl]
    · rw [hrun] at hrun'
      have hlive : (x.answered (some res, .suspended r) g).2.live = some (.suspended r) := by
        unfold answered
        dsimp only
        rw [hrun']
        rfl
      exact ⟨.underway hlive (hid'.trans hid.symm) hrun', fun _ => ⟨hc'.trans hc, hfin'⟩⟩

/-- **A live run is stopped**: it makes no further move, and the game is given back. -/
theorem InOrder.exists_stopLive (h : x.InOrder) (hlive : x.live ≠ none) :
    ∃ c p s, x.stopLive =
      (.ok ({ x with
          game := { x.game with running := false, cancelled := c, phase := p, status := s }
          live := none } : Session).payload,
        { x with
          game := { x.game with running := false, cancelled := c, phase := p, status := s }
          live := none }) := by
  unfold stopLive
  cases h.shape with
  | idle live _ => exact absurd live hlive
  | @unbegun run live unstarted resting =>
    -- a run that was not begun is only given up
    refine ⟨x.game.cancelled, x.game.phase, x.game.status, ?_⟩
    rw [live]
    dsimp only
    rw [resting, if_neg Bool.false_ne_true, h.closeLive_eq, resting, if_neg Bool.false_ne_true]
  | @underway r live owner running =>
    have hstopped : x.game.stopped =
        { x.game with cancelled := true, running := false, phase := .cancelled } := if_pos running
    have hnumber : x.game.stopped.runId = r.runId := Game.runId_stopped.trans owner
    obtain ⟨_, t, hnext, rfl, s, hs⟩ := succeeds_next_of_cancelled Listener.passive_silent
      (t := ⟨x.game.stopped, ()⟩) hnumber Game.cancelled_stopped
    have hon : ((cancel : Play Unit Unit) >>= fun _ => next Listener.silent (.suspended r)).on
        ⟨x.game, ()⟩ = (.ok (none, .ended), t) := by
      rw [on_bind, cancel, on_modifyGame]
      exact hnext
    refine ⟨true, .cancelled, s, ?_⟩
    rw [live]
    dsimp only
    rw [Game.handedBack_of_eq hnumber, hstopped] at hs
    rw [if_pos running, play_of_on hon, hs]
    rfl

/-! ### All errands -/

/-- **What comes of an errand.** -/
inductive Performed (x : Session) : Errand → Answer → Session → Prop
  /-- A script is turned down. -/
  | rejected {e : Errand} {a : Answer} {x' : Session} (script : e.HasScript)
      (turned : x.TurnedDown a x') : Performed x e a x'
  /-- There is no live run to be asked or stopped. -/
  | absent {e : Errand} {a : Answer} (asks : e = .nextLive ∨ e = .stopLive)
      (status : a.status = 400) (live : x.live = none) : Performed x e a x
  /-- There is no such maze. The live run is given up nevertheless. -/
  | dropped {name : Json} {a : Answer} (status : a.status = 400 ∨ a.status = 500) :
      Performed x (.setDifficulty name) a x.closeLive
  /-- A maze is started. -/
  | started {e : Errand} {a : Answer} (m : Maze) (s : Status)
      (starts : e = .reset ∨ ∃ name, e = .setDifficulty name) (status : a.status = 200) :
      Performed x e a (x.opened m s)
  /-- A script is played to its end. -/
  | played {code : Json} {a : Answer} {g : Game} (status : a.status = 200)
      (before : x.game.running = false) (after : g.running = false) :
      Performed x (.run code) a { x with game := g }
  /-- A script is taken up live. -/
  | taken {code : Json} {a : Answer} (source : String) (status : a.status = 200)
      (before : x.game.running = false) :
      Performed x (.startLive code) a { x with live := some (.live source) }
  /-- The live run is asked for a step. -/
  | polled {run : Run} {p : Option Report × Run} {g : Game} (live : x.live = some run)
      (polled : x.Polled run p g) :
      Performed x .nextLive (x.answered p g).1 (x.answered p g).2
  /-- The live run is stopped. -/
  | stopped {a : Answer} (c : Bool) (p : Phase) (s : Status) (live : x.live ≠ none)
      (status : a.status = 200) :
      Performed x .stopLive a
        { x with
          game := { x.game with running := false, cancelled := c, phase := p, status := s }
          live := none }

/-- **What a session in order does.** -/
theorem InOrder.performed (h : x.InOrder) (e : Errand) :
    x.Performed e (x.perform e).1 (x.perform e).2 := by
  cases e with
  | reset =>
    obtain ⟨s, hreset⟩ := h.exists_reset
    rw [perform, hreset]
    exact .started _ s (.inl rfl) rfl
  | setDifficulty name =>
    rw [perform]
    rcases h.setDifficulty_cases name with ⟨m, s, hset⟩ | ⟨a, ha, hset⟩ <;> rw [hset]
    · exact .started m s (.inr ⟨name, rfl⟩) rfl
    · exact .dropped ha
  | run code =>
    rw [perform]
    rcases x.run_cases code with hturned | ⟨hidle, hstatus, g, hg, heq⟩
    · exact .rejected trivial hturned
    · rw [heq]
      exact .played hstatus hidle hg
  | startLive code =>
    rw [perform]
    rcases x.startLive_cases code with hturned | ⟨hidle, hstatus, source, -, -, heq⟩
    · exact .rejected trivial hturned
    · rw [heq]
      exact .taken source hstatus hidle
  | nextLive =>
    rw [perform]
    cases hlive : x.live with
    | none =>
      rw [nextLive_of_none hlive]
      exact .absent (.inl rfl) rfl hlive
    | some run =>
      obtain ⟨p, g, hnext, hpolled⟩ := h.exists_nextLive hlive
      rw [hnext]
      exact .polled hlive hpolled
  | stopLive =>
    rw [perform]
    cases hlive : x.live with
    | none =>
      have hstop : x.stopLive = (Answer.fault "no_live_run", x) := by
        unfold stopLive
        rw [hlive]
      rw [hstop]
      exact .absent (.inr rfl) rfl hlive
    | some run =>
      have hne : x.live ≠ none := by simp [hlive]
      obtain ⟨c, p, s, hstop⟩ := h.exists_stopLive hne
      rw [hstop]
      exact .stopped c p s hne rfl

namespace Performed

variable {e : Errand} {a : Answer} {x' : Session}

/-- **Whatever a session is asked for, it stays in order.** -/
theorem inOrder (h : x.Performed e a x') (hx : x.InOrder) : x'.InOrder := by
  cases h with
  | rejected _ turned =>
    obtain ⟨s, rfl⟩ := turned.told
    refine ⟨?_, hx.going⟩
    cases hx.shape with
    | idle live resting => exact .idle live resting
    | unbegun live unstarted resting => exact .unbegun live unstarted resting
    | underway live owner running => exact .underway live owner running
  | absent _ _ _ => exact hx
  | dropped _ =>
    rw [hx.closeLive_eq]
    exact .of_idle rfl rfl
  | started m s _ _ => exact inOrder_opened x m s
  | played _ before after =>
    refine ⟨?_, fun hrun => by cases hrun.symm.trans after⟩
    cases hx.shape with
    | idle live _ => exact .idle live after
    | unbegun live unstarted _ => exact .unbegun live unstarted after
    | underway _ _ running => cases before.symm.trans running
  | taken source _ before => exact inOrder_taken x source before
  | polled _ polled => exact polled.inOrder hx
  | stopped c p s _ _ => exact .of_idle rfl rfl

/-- **A script is turned down as busy exactly if a run owns the game.** -/
theorem status_eq_busy_iff (h : x.Performed e a x') (he : e.HasScript) :
    a.status = 409 ↔ x.game.running = true := by
  cases h with
  | rejected _ turned => exact turned.busy
  | absent asks _ _ =>
    rcases asks with rfl | rfl
    · exact he.elim
    · exact he.elim
  | dropped _ => exact he.elim
  | started m s starts _ =>
    rcases starts with rfl | ⟨name, rfl⟩
    · exact he.elim
    · exact he.elim
  | played status before _ => exact iff_of_false (by omega) (by simp [before])
  | taken source status before => exact iff_of_false (by omega) (by simp [before])
  | polled _ _ => exact he.elim
  | stopped c p s _ _ => exact he.elim

/-- **A live run that is there can be asked for a step.** -/
theorem status_nextLive (h : x.Performed .nextLive a x') (hlive : x.live ≠ none) :
    a.status = 200 := by
  cases h with
  | rejected script _ => exact script.elim
  | absent _ _ live => exact absurd live hlive
  | started m s starts _ =>
    rcases starts with hne | ⟨name, hne⟩
    · cases hne
    · cases hne
  | polled _ _ => rfl

/-- **What ends live runs has done so**, and no run owns the game, unless it was refused. -/
theorem idle_of_endsLive (h : x.Performed e a x') (he : e.EndsLive) (ha : a.status = 200) :
    x'.live = none ∧ x'.game.running = false := by
  cases h with
  | rejected script _ => cases e <;> first | exact script.elim | exact he.elim
  | absent _ status _ => omega
  | dropped status => omega
  | started m s _ _ => exact ⟨rfl, rfl⟩
  | played _ _ _ => exact he.elim
  | taken source _ _ => exact he.elim
  | polled _ _ => exact he.elim
  | stopped c p s _ _ => exact ⟨rfl, rfl⟩

/-- **To stop the live run moves nothing.** -/
theorem world_stopLive (h : x.Performed .stopLive a x') :
    x'.game.world = x.game.world ∧ x'.game.steps = x.game.steps := by
  cases h with
  | rejected script _ => exact script.elim
  | absent _ _ _ => exact ⟨rfl, rfl⟩
  | started m s starts _ =>
    rcases starts with hne | ⟨name, hne⟩
    · cases hne
    · cases hne
  | stopped c p s _ _ => exact ⟨rfl, rfl⟩

end Performed

end Session

end Service

end ScriptedMaze
