import Mathlib.Logic.Basic
import ScriptedMaze.Proofs.Play.Courses

/-!
# What is told is what has happened

Whoever has the reports on a game since its maze was started needs nothing else to know how the
game stands. What the reports tell are events, and each event says what has happened to a world
(`World.happened`). If all of them are retold, beginning with the maze as it opens, the world of
the game comes of it (`World.retold`).

This is put together from three things that are said of a single report: it shows the world after
its own events (`World.Agrees`), a move in it starts where the one before ended
(`Event.Linked`), and what it says has become of the action fits its events
(`Report.Sound`). A game that goes its course is told in this way (`Game.Told`), and so is one
after any operations that start no maze (`Sitting.chronicle_performAll`).
-/

namespace ScriptedMaze

/-! ### Retelling what has happened -/

namespace World

variable {w : World} {d : Direction}

/-- The world with a floor at a point, if the point is in the grid. -/
def opened (w : World) (p : Point) : World := (w.set? p .floor).getD w

/-- **What an event says has happened to a world.** -/
def happened (w : World) : Event → World
  | .move _ _ target => { w with robot := target }
  | .blocked .. => w
  | .key place => { w.opened place with hasKey := true }
  | .door place => w.opened place
  | .flag _ => { w with finished := true }

/-- What events say has happened to a world, one after the other. -/
def retold (w : World) (es : List Event) : World := es.foldl happened w

theorem retold_append (w : World) (es es' : List Event) :
    w.retold (es ++ es') = (w.retold es).retold es' :=
  List.foldl_append

theorem opened_of_set? {p : Point} {g : Grid} (h : w.grid.set? p .floor = some g) :
    w.opened p = { w with grid := g } := by
  unfold opened set?
  rw [h]
  rfl

/-- **The events of a move say what the move does.** -/
theorem retold_events (w : World) (d : Direction) :
    w.retold ((w.move d).2.events d w (w.move d).1) = (w.move d).1 := by
  rcases w.move_cases d with ⟨-, hm⟩ | ⟨-, -, w', e, hm, hent⟩
  · rw [hm]
    rfl
  · rw [hm]
    cases hent with
    | key hk hs =>
      have hopened := opened_of_set? (w := { w with robot := w.target d }) hs
      change { World.opened { w with robot := w.target d } (w.target d) with hasKey := true } = _
      rw [hopened]
    | door hk hkey hs =>
      exact opened_of_set? (w := { w with robot := w.target d }) hs
    | flag hk => rfl
    | plain hk => rfl

end World

/-- **Every move starts where the one before it ended**, and the first at a given point. -/
def Event.Linked : Point → List Event → Prop
  | _, [] => True
  | p, .move _ origin target :: es => origin = p ∧ Linked target es
  | p, _ :: es => Linked p es

namespace World

variable {w : World} {d : Direction}

theorem robot_opened (w : World) (p : Point) : (w.opened p).robot = w.robot := by
  unfold opened set?
  cases w.grid.set? p .floor <;> rfl

/-- Events are linked if the later ones go on where the earlier ones have left the robot. -/
theorem linked_append {p : Point} {es es' : List Event} (hp : w.robot = p)
    (h : Event.Linked p es) (h' : Event.Linked (w.retold es).robot es') :
    Event.Linked p (es ++ es') := by
  induction es generalizing w p with
  | nil =>
    rw [← hp]
    exact h'
  | cons e es ih =>
    -- only a move puts the robot elsewhere, and it says where
    cases e with
    | move d origin target => exact ⟨h.1, ih (w := w.happened (.move d origin target)) rfl h.2 h'⟩
    | blocked d place target => exact ih hp h h'
    | key place =>
      exact ih (w := w.happened (.key place)) ((robot_opened w place).trans hp) h h'
    | door place =>
      exact ih (w := w.happened (.door place)) ((robot_opened w place).trans hp) h h'
    | flag place => exact ih (w := w.happened (.flag place)) hp h h'

/-- The events of a move start where the robot stands. -/
theorem linked_events (w : World) (d : Direction) :
    Event.Linked w.robot ((w.move d).2.events d w (w.move d).1) := by
  cases (w.move d).2 with
  | blocked => trivial
  | moved e =>
    cases e
    · exact ⟨rfl, trivial⟩
    · exact ⟨rfl, trivial⟩
    · exact ⟨rfl, trivial⟩
    · exact ⟨rfl, trivial⟩

end World

/-! ### Single reports -/

namespace Report

/-- What the reports tell, in order. -/
def told (rs : List Report) : List Event := rs.flatMap events

/-- **The report shows a world.** -/
structure Shows (r : Report) (w : World) : Prop where
  robot : r.robot = w.robot
  hasKey : r.hasKey = w.hasKey
  finished : r.finished = w.finished
  picture : r.picture = w.picture

/-- **What has become of the action fits what has happened.** -/
structure Sound (r : Report) : Prop where
  /-- A move that was tried was made or was blocked, and not both. -/
  tried : r.verdict.ok = true → Xor (∃ effect, r.verdict = .moved effect) (r.verdict = .blocked)
  /-- A move that was made is told, with what the cell did that was entered. -/
  moved : ∀ effect, r.verdict = .moved effect → ∃ d origin,
    r.events = .move d origin r.robot :: effect.events r.robot
  /-- A move that was blocked is told, and nothing else. -/
  blocked : r.verdict = .blocked → ∃ d target, r.events = [.blocked d r.robot target]
  /-- Where no move was tried, there is nothing to tell. -/
  refused : r.verdict.ok = false → r.events = []

namespace Sound

variable {r : Report}

theorem of_moved {d : Direction} {origin : Point} {effect : Effect}
    (hverdict : r.verdict = .moved effect)
    (hevents : r.events = .move d origin r.robot :: effect.events r.robot) : r.Sound := by
  refine ⟨fun _ => .inl ⟨⟨effect, hverdict⟩, ?_⟩, ?_, ?_, ?_⟩ <;> rw [hverdict]
  · exact nofun
  · rintro effect' ⟨⟩
    exact ⟨d, origin, hevents⟩
  · exact nofun
  · exact nofun

theorem of_blocked {d : Direction} {target : Point} (hverdict : r.verdict = .blocked)
    (hevents : r.events = [.blocked d r.robot target]) : r.Sound := by
  refine ⟨fun _ => .inr ⟨hverdict, ?_⟩, ?_, ?_, ?_⟩ <;> rw [hverdict]
  · exact nofun
  · exact nofun
  · exact fun _ => ⟨d, target, hevents⟩
  · exact nofun

theorem of_refused (hverdict : r.verdict.ok = false) (hevents : r.events = []) : r.Sound where
  tried hok := by cases hverdict.symm.trans hok
  moved effect hmoved := by
    rw [hmoved] at hverdict
    cases hverdict
  blocked hblocked := by
    rw [hblocked] at hverdict
    cases hverdict
  refused _ := hevents

end Sound

end Report

namespace World

variable {w : World} {d : Direction}

/-- **Each report shows the world after the events that it tells last.** -/
def Agrees : World → List Report → Prop
  | _, [] => True
  | w, r :: rs => r.Shows (w.retold r.events) ∧ Agrees (w.retold r.events) rs

theorem Agrees.append {rs rs' : List Report} (h : w.Agrees rs)
    (h' : (w.retold (Report.told rs)).Agrees rs') : w.Agrees (rs ++ rs') := by
  induction rs generalizing w with
  | nil => exact h'
  | cons r rs ih =>
    refine ⟨h.1, ih h.2 ?_⟩
    rwa [← retold_append]

/-- **The report on a move** shows the world after it. -/
theorem shows_moveReport (w : World) (d : Direction) (index : Nat) (line : Option Nat) :
    (w.moveReport d index line).Shows (w.retold (w.moveReport d index line).events) := by
  have hworld : w.retold (w.moveReport d index line).events = (w.move d).1 := w.retold_events d
  rw [hworld]
  exact ⟨rfl, rfl, rfl, rfl⟩

/-- Every move is tried. -/
theorem ok_moveReport (w : World) (d : Direction) (index : Nat) (line : Option Nat) :
    (w.moveReport d index line).verdict.ok = true := by
  change (w.move d).2.verdict.ok = true
  cases (w.move d).2 <;> rfl

theorem sound_moveReport (w : World) (d : Direction) (index : Nat) (line : Option Nat) :
    (w.moveReport d index line).Sound := by
  unfold moveReport reported
  rcases w.move_cases d with ⟨-, hm⟩ | ⟨-, -, w', e, hm, hent⟩
  · rw [hm]
    exact .of_blocked rfl rfl
  · rw [hm]
    exact .of_moved rfl rfl

end World

/-! ### Games and the reports on them -/

namespace Game

/-- **What has become of a game is what the reports tell.** -/
structure Told (g : Game) (rs : List Report) (g' : Game) : Prop where
  maze : g'.maze = g.maze
  /-- The events make the later world of the earlier one. -/
  world : g.world.retold (Report.told rs) = g'.world
  agrees : g.world.Agrees rs
  linked : Event.Linked g.world.robot (Report.told rs)
  /-- As many moves are counted as were tried. -/
  steps : g'.steps = g.steps + rs.countP fun r => r.verdict.ok
  sound : ∀ r ∈ rs, r.Sound

namespace Told

variable {g g' g'' : Game} {rs rs' : List Report}

/-- Where nothing becomes of the world, there is nothing to tell. -/
theorem nothing (hmaze : g'.maze = g.maze) (hworld : g'.world = g.world)
    (hsteps : g'.steps = g.steps) : Told g [] g' where
  maze := hmaze
  world := hworld.symm
  agrees := trivial
  linked := trivial
  steps := hsteps
  sound := nofun

/-- **A move is told by the report on it.** -/
theorem move {d : Direction} {index : Nat} {line : Option Nat} (hmaze : g'.maze = g.maze)
    (hworld : g'.world = (g.world.move d).1) (hsteps : g'.steps = g.steps + 1) :
    Told g [g.world.moveReport d index line] g' where
  maze := hmaze
  world := by
    rw [hworld, Report.told, List.flatMap_singleton]
    exact g.world.retold_events d
  agrees := ⟨g.world.shows_moveReport d index line, trivial⟩
  linked := by
    rw [Report.told, List.flatMap_singleton]
    exact g.world.linked_events d
  steps := by
    rw [hsteps, List.countP_singleton, g.world.ok_moveReport]
    rfl
  sound r hr := by
    rw [List.mem_singleton.mp hr]
    exact g.world.sound_moveReport d index line

/-- A report on an action that was refused tells nothing. -/
theorem refused {verdict : Verdict} (g : Game) (action : String) (h : verdict.ok = false) :
    Told g [g.world.reported action verdict []] g where
  maze := rfl
  world := rfl
  agrees := ⟨⟨rfl, rfl, rfl, rfl⟩, trivial⟩
  linked := trivial
  steps := by
    rw [List.countP_singleton]
    change _ = g.steps + if verdict.ok = true then 1 else 0
    rw [h]
    rfl
  sound r hr := by
    rw [List.mem_singleton.mp hr]
    exact .of_refused h rfl

theorem append (h : Told g rs g') (h' : Told g' rs' g'') : Told g (rs ++ rs') g'' := by
  have htold : Report.told (rs ++ rs') = Report.told rs ++ Report.told rs' := List.flatMap_append
  refine ⟨h'.maze.trans h.maze, ?_, h.agrees.append ?_, ?_, ?_, ?_⟩
  · rw [htold, World.retold_append, h.world, h'.world]
  · rw [h.world]
    exact h'.agrees
  · rw [htold]
    refine World.linked_append rfl h.linked ?_
    rw [h.world]
    exact h'.linked
  · rw [h'.steps, h.steps, List.countP_append]
    omega
  · intro r hr
    exact (List.mem_append.mp hr).elim (h.sound r) (h'.sound r)

end Told

/-- **The course of a game is told.** -/
theorem Course.told_all {g g' : Game} {rs : List Report} (h : Course g rs g') : Told g rs g' := by
  induction h with
  | told g s => exact .nothing rfl rfl rfl
  | stopped g =>
    unfold Game.stopped
    split <;> exact .nothing rfl rfl rfl
  | calledOff g => exact .nothing rfl rfl rfl
  | stepped d hidle hfin => exact .move rfl rfl rfl
  | played hrun h =>
    cases h with
    | done s => exact .nothing rfl rfl rfl
    | last s h => exact .move rfl rfl rfl
    | made s h hid hindex => exact .move rfl rfl rfl
  | append _ _ ih ih' => exact ih.append ih'

/-- In the course of a game, every move is tried. -/
theorem Course.ok {g g' : Game} {rs : List Report} (h : Course g rs g') :
    ∀ r ∈ rs, r.verdict.ok = true := by
  induction h with
  | told | stopped | calledOff => exact nofun
  | @stepped g d =>
    intro r hr
    rw [List.mem_singleton.mp hr]
    exact g.world.ok_moveReport d 0 none
  | @played g _ _ _ _ _ _ _ h =>
    intro r hr
    cases h with
    | done s => cases hr
    | last s h =>
      rw [Option.toList_some, List.mem_singleton] at hr
      rw [hr]
      exact g.world.ok_moveReport _ _ _
    | made s h hid hindex =>
      rw [Option.toList_some, List.mem_singleton] at hr
      rw [hr]
      exact g.world.ok_moveReport _ _ _
  | append _ _ ih ih' =>
    intro r hr
    exact (List.mem_append.mp hr).elim (ih r) (ih' r)

theorem Gone.ok {begins : Prop} {g g' : Game} {rs : List Report} (h : Gone begins g rs g') :
    ∀ r ∈ rs, r.verdict.ok = true := by
  by_cases hb : begins
  · exact (h.taken hb).ok
  · exact (h.untaken hb).ok

theorem Gone.told {begins : Prop} {g g' : Game} {rs : List Report} (h : Gone begins g rs g') :
    Told g rs g' := by
  by_cases hb : begins
  · obtain ⟨hmaze, hworld, hagrees, hlinked, hsteps, hsound⟩ := (h.taken hb).told_all
    exact ⟨hmaze, hworld, hagrees, hlinked, hsteps, hsound⟩
  · exact (h.untaken hb).told_all

end Game

/-! ### Sittings -/

namespace Sitting

open Game

variable {σ : Type} {tell : Listener σ} {s : Sitting σ} {o : Operation}

/-- The reports that operations give, in order. -/
def reported (tell : Listener σ) (s : Sitting σ) (os : List Operation) : List Report :=
  (s.performAll tell os).1.flatMap gives

namespace Sequel

variable {rs : List Report} {t : Table σ}

/-- An operation that starts no maze is told. -/
theorem told (h : s.Sequel o rs t) (ho : o.restarts = false) : Told s.table.game rs t.game := by
  cases h with
  | restarted hrestarts => cases ho.symm.trans hrestarts
  | refused _ _ hverdict action => exact .refused _ action hverdict
  | gone _ hgone => exact hgone.told

/-- One that starts a maze leaves it as it opens. -/
theorem atOpening (h : s.Sequel o rs t) (ho : o.restarts = true) : t.game.AtOpening := by
  cases h with
  | restarted _ m hsame =>
    obtain ⟨status, hstatus⟩ := hsame
    exact (Disturbed.kept status hstatus).atOpening (atOpening_restarted _)
  | refused hrestarts => cases ho.symm.trans hrestarts
  | gone hrestarts => cases ho.symm.trans hrestarts

/-- **Where a move was not even tried, the table is left as it was.** -/
theorem table_eq_of_refused (h : s.Sequel o rs t) {r : Report} (hr : r ∈ rs)
    (hno : r.verdict.ok = false) : t = s.table := by
  cases h with
  | restarted => cases hr
  | refused => rfl
  | gone _ hgone => cases hno.symm.trans (hgone.ok r hr)

end Sequel

/-- **Operations that start no maze are told together.** -/
theorem InOrder.told_performAll (h : s.InOrder fun _ => True) (htell : tell.Passive)
    (os : List Operation) (hos : ∀ o ∈ os, o.restarts = false) :
    Told s.table.game (s.reported tell os) (s.performAll tell os).2.table.game := by
  induction os generalizing s with
  | nil => exact .nothing rfl rfl rfl
  | cons o os ih =>
    obtain ⟨ho, hos⟩ := List.forall_mem_cons.mp hos
    have hrest := ih (h.perform htell.callsBack o).1 hos
    unfold reported at hrest ⊢
    rw [Sitting.performAll, List.flatMap_cons]
    exact ((h.sequel htell o).told ho).append hrest

/-- **The reports are a chronicle of the game** since its maze was started. -/
structure Chronicle (tell : Listener σ) (s : Sitting σ) (os : List Operation) : Prop where
  /-- The world of the game is what the events make of the maze as it opens. -/
  world : (s.performAll tell os).2.table.game.maze.opening.retold
    (Report.told (s.reported tell os)) = (s.performAll tell os).2.table.game.world
  /-- Each report shows the world that the events have come to with its own. -/
  agrees : (s.performAll tell os).2.table.game.maze.opening.Agrees (s.reported tell os)
  /-- Every move starts where the one before it ended, and the first at the start. -/
  linked : Event.Linked (s.performAll tell os).2.table.game.maze.start
    (Report.told (s.reported tell os))
  /-- The moves that were tried are counted. -/
  steps : (s.performAll tell os).2.table.game.steps =
    (s.reported tell os).countP fun r => r.verdict.ok
  sound : ∀ r ∈ s.reported tell os, r.Sound
  /-- With a report on a move that was not tried, nothing at all is done. -/
  refused : ∀ before o after, os = before ++ o :: after →
    ∀ r ∈ gives ((s.performAll tell before).2.perform tell o).1, r.verdict.ok = false →
      ((s.performAll tell before).2.perform tell o).2.table = (s.performAll tell before).2.table

/-- The maze has just been started when a sitting begins. -/
theorem atOpening_new (htell : tell.Passive) (rules : Rules) (maze : Maze) (audience : σ) :
    (Game.new tell rules maze audience).2.game.AtOpening := by
  obtain ⟨_, t, hon, s, hs⟩ := Play.succeeds_reset htell ⟨Game.unopened rules maze, audience⟩
  unfold Game.new
  rw [hon]
  exact (Disturbed.kept s hs).atOpening (atOpening_restarted _)

theorem performAll_concat (tell : Listener σ) (s : Sitting σ) (os : List Operation)
    (o : Operation) :
    (s.performAll tell (os ++ [o])).2 = ((s.performAll tell os).2.perform tell o).2 := by
  induction os generalizing s with
  | nil => rfl
  | cons o' os ih => exact ih _

/-- **The reports that are given since the maze was last started are a chronicle of the game**,
whatever operations they come from, single moves and steps of any runs in any order. -/
theorem chronicle_performAll (htell : tell.Passive) (rules : Rules) (maze : Maze) (audience : σ)
    (earlier os : List Operation)
    (hs : s = (performAll tell ⟨(Game.new tell rules maze audience).2, []⟩ earlier).2)
    (hlast : earlier = [] ∨ ∃ before o, earlier = before ++ [o] ∧ o.restarts = true)
    (hos : ∀ o ∈ os, o.restarts = false) : Chronicle tell s os := by
  have hreached := inOrder_of_passive htell rules maze audience
  have hin : s.InOrder fun _ => True := hs ▸ hreached earlier
  -- the maze has just been started: in the beginning, or by the last of the earlier operations
  have hopening : s.table.game.AtOpening := by
    rcases hlast with rfl | ⟨before, o, rfl, ho⟩
    · rw [hs]
      exact atOpening_new htell rules maze audience
    · rw [hs, performAll_concat]
      exact ((hreached before).sequel htell o).atOpening ho
  obtain ⟨hmaze, hworld, hagrees, hlinked, hsteps, hsound⟩ := hin.told_performAll htell os hos
  rw [hopening.world, ← hmaze] at hworld hagrees hlinked
  rw [hopening.steps, Nat.zero_add] at hsteps
  refine ⟨hworld, hagrees, hlinked, hsteps, hsound, fun before o after hsplit r hr hno => ?_⟩
  have hbefore := (hin.performAll htell.callsBack before).1
  exact (hbefore.sequel htell o).table_eq_of_refused hr hno

/-- A sitting in which the maze was started over in the middle of a run. -/
def startedOver : Sitting Unit :=
  (performAll Listener.silent ⟨(Game.new Listener.silent {} Preset.easy.maze ()).2, []⟩
    [.openBatch "first" "moveRight(); moveRight();", .next "first", .reset]).2

/-- An action that is not understood, a single move, a run that takes the key and opens the door
on its way to the flag, and a move that comes too late. -/
def visit : List Operation :=
  [.step (.words "jump"), .step (.toward .right),
    .openBatch "second" "moveRight(); moveLeft(); moveDown(); moveDown();", .next "first",
    .drain "second", .step (.toward .up)]

/-- The chronicle of such a visit begins when the maze was started over. -/
theorem chronicle_performAll_visit :
    (Listener.silent : Listener Unit).Passive ∧ (∀ o ∈ visit, o.restarts = false) ∧
      (startedOver.reported Listener.silent visit).map (·.verdict) =
        [.invalidAction, .moved .none, .moved .keyCollected, .moved .none, .moved .doorOpened,
          .moved .flagReached, .gameOver] ∧
      Chronicle Listener.silent startedOver visit := by
  have hvisit : ∀ o ∈ visit, o.restarts = false := by simp [visit, Operation.restarts]
  refine ⟨Listener.passive_silent, hvisit, by decide +kernel, ?_⟩
  refine chronicle_performAll Listener.passive_silent {} Preset.easy.maze () _ visit rfl
    (.inr ⟨?_, .reset, ?_, rfl⟩) hvisit
  · exact [.openBatch "first" "moveRight(); moveRight();", .next "first"]
  · rfl

end Sitting

end ScriptedMaze
