import ScriptedMaze.Proofs.Play.Courses

/-!
# Runs that are asked to stop

The run in progress is asked to stop by a mark on the game, which all runs share. It gives the
game up at once (`Game.Halted`), but the run itself hears of it only when it is asked for its
next step, and in between anything may be done to the game.

Most of it leaves the mark where it is. Only when a maze is started, or another run begins, is the
mark taken away (`Sitting.Supersedes`), and then the game gets another number as well. So the run
can tell the two cases apart whenever it is asked again. If nothing has superseded it, it says that
it was stopped, once; otherwise it goes without a word. Either way that is all it ever does
(`Sitting.Parts`, `Sitting.stopsFor_of_running`).
-/

namespace ScriptedMaze

/-! ### Games that were halted -/

namespace Game

/-- **The run with a given number was asked to stop**, and nothing has superseded it. -/
structure Halted (id : Nat) (g : Game) : Prop where
  number : g.runId = id
  cancelled : g.cancelled = true
  idle : g.running = false
  phase : g.phase = .cancelled

variable {g g' : Game} {id : Nat} {rs : List Report}

theorem halted_stopped (h : g.running = true) : Halted g.runId g.stopped := by
  refine ⟨runId_stopped, cancelled_stopped, running_stopped, ?_⟩
  unfold stopped
  rw [if_pos h]

/-- What goes its course stays halted: no run owns the game that could make a move. -/
theorem Course.halted (h : Course g rs g') (hg : Halted id g) : Halted id g' := by
  induction h with
  | told => exact ⟨hg.number, hg.cancelled, hg.idle, hg.phase⟩
  | stopped => rwa [stopped_eq_self hg.idle hg.cancelled]
  | calledOff => exact ⟨hg.number, hg.cancelled, rfl, rfl⟩
  | stepped => exact ⟨hg.number, hg.cancelled, hg.idle, hg.phase⟩
  | played hrun => cases hg.idle.symm.trans hrun
  | append _ _ ih ih' => exact ih' (ih hg)

end Game

/-! ### Leaving a run alone -/

/-- **The operation leaves the run of a given name where it is**, but for a wait. -/
def Operation.Leaves (name : String) (o : Operation) : Prop :=
  o.run? = some name → ∃ seconds, o = .slow name seconds

namespace Play

open Game

variable {σ : Type} {tell : Listener σ} {t : Table σ} {r : Replay}

/-- **A halted run says that it was stopped**, and nothing else is done. -/
theorem on_next_of_halted (h : tell.Passive) (hg : Halted r.runId t.game) :
    (next tell (.suspended r)).on t =
      (tellStopped tell r.mode >>= fun _ => pure (none, .ended)).on t := by
  -- there is nothing to give back that was not given up before
  have hgame : t.game.handedBack r.runId .cancelled = t.game := by
    rw [handedBack_of_eq hg.number, ← hg.phase, ← hg.idle]
  have hresume : (resume tell r).on t =
      (tellStopped tell r.mode >>= fun _ => pure (none, .ended)).on t := by
    rw [on_resume_of_cancelled hg.number hg.cancelled, on_bind, on_stop, hgame, on_bind]
  obtain ⟨_, t', hon, -⟩ := Within.tellStopped h.staysWithin r.mode t trivial
  have htold : (tellStopped tell r.mode >>= fun _ =>
      pure ((none, .ended) : Option Report × Run)).on t = (.ok (none, .ended), t') := by
    rw [on_bind, hon]
    rfl
  rw [htold] at hresume ⊢
  exact on_guarded_of_ok hresume

end Play

namespace Sitting

open Game

variable {σ : Type} {tell : Listener σ} {s : Sitting σ} {name : String} {p : PacedRun}
  {o : Operation} {r : Replay} {dead : Nat → Prop}

theorem exists_run?_perform (tell : Listener σ) (hp : s.run? name = some p)
    (ho : o.Leaves name) :
    ∃ p', (s.perform tell o).2.run? name = some p' ∧ p'.run = p.run := by
  by_cases hrun : o.run? = some name
  · obtain ⟨seconds, rfl⟩ := ho hrun
    have hslow : s.perform tell (.slow name seconds) =
        (.ok .done, s.put name (p.slowed seconds)) := by
      unfold perform
      exact withRun_of_ok (a := ()) hp rfl
    rw [hslow]
    exact ⟨_, (run?_put _ _ _ _).trans (if_pos rfl), rfl⟩
  · exact ⟨p, (run?_perform_of_ne tell s hrun).trans hp, rfl⟩

/-- **The run is left where it is**, but for the waits that were laid around it. -/
theorem exists_run?_performAll (tell : Listener σ) (hp : s.run? name = some p)
    {later : List Operation} (hlater : ∀ o ∈ later, o.Leaves name) :
    ∃ p', (s.performAll tell later).2.run? name = some p' ∧ p'.run = p.run := by
  induction later generalizing s p with
  | nil => exact ⟨p, hp, rfl⟩
  | cons o later ih =>
    obtain ⟨ho, hlater⟩ := List.forall_mem_cons.mp hlater
    obtain ⟨p₁, hp₁, hrun₁⟩ := exists_run?_perform tell hp ho
    obtain ⟨p₂, hp₂, hrun₂⟩ := ih hp₁ hlater
    exact ⟨p₂, hp₂, hrun₂.trans hrun₁⟩

/-! ### What supersedes a run -/

/-- **A maze is started or a run begins**, so that a run that was stopped is superseded. -/
def Supersedes (s : Sitting σ) (o : Operation) : Prop :=
  o.restarts = true ∨ s.Begins o

/-- **Some operation has superseded the runs there were before.** -/
def Superseded (tell : Listener σ) : Sitting σ → List Operation → Prop
  | _, [] => False
  | s, o :: os => s.Supersedes o ∨ Superseded tell (s.perform tell o).2 os

namespace Sequel

variable {rs : List Report} {t : Table σ}

/-- An operation that supersedes nothing leaves the game halted. -/
theorem halted (h : s.Sequel o rs t) {id : Nat} (hg : Halted id s.table.game)
    (hnot : ¬s.Supersedes o) : Halted id t.game := by
  cases h with
  | restarted ho => exact absurd (.inl ho) hnot
  | refused => exact hg
  | gone _ hgone => exact (hgone.untaken fun hb => hnot (.inr hb)).halted hg

/-- An operation that supersedes gives the game another number. -/
theorem runId_lt (h : s.Sequel o rs t) (hsup : s.Supersedes o) :
    s.table.game.runId < t.game.runId := by
  cases h with
  | restarted _ m hsame =>
    obtain ⟨status, hstatus⟩ := hsame
    rw [hstatus]
    exact Nat.lt_succ_self _
  | refused ho hnot => exact absurd hsup (by simp [Supersedes, ho, hnot])
  | gone ho hgone =>
    have hb : s.Begins o := hsup.resolve_left (by simp [ho])
    rw [(hgone.taken hb).runId_eq]
    exact Nat.lt_succ_self _

end Sequel

/-- **A run that was stopped is halted, or superseded for good.** -/
theorem InOrder.halted_performAll (h : s.InOrder fun _ => True) (htell : tell.Passive) {id : Nat}
    (hg : Halted id s.table.game) {later : List Operation} (hnot : ¬Superseded tell s later) :
    Halted id (s.performAll tell later).2.table.game := by
  induction later generalizing s with
  | nil => exact hg
  | cons o later ih =>
    obtain ⟨hnow, hrest⟩ := not_or.mp hnot
    exact ih (h.perform htell.callsBack o).1 ((h.sequel htell o).halted hg hnow) hrest

theorem InOrder.runId_lt_performAll (h : s.InOrder fun _ => True) (htell : tell.Passive)
    {later : List Operation} (hsup : Superseded tell s later) :
    s.table.game.runId < (s.performAll tell later).2.table.game.runId := by
  induction later generalizing s with
  | nil => exact hsup.elim
  | cons o later ih =>
    have hnext := h.perform htell.callsBack o
    rcases hsup with hnow | hrest
    · have hlt := (h.sequel htell o).runId_lt hnow
      exact Nat.lt_of_lt_of_le hlt (hnext.1.performAll htell.callsBack later).2
    · exact Nat.lt_of_le_of_lt hnext.2 (ih hnext.1 hrest)

/-! ### Parting -/

/-- What is known of the owner in a sitting in order. -/
theorem InOrder.accounted {fit : σ → Prop} (h : s.InOrder fit) :
    Accounted (fun _ => False) s where
  le name i hi := by
    obtain ⟨p, hp, hi'⟩ := hi
    exact (h.fits name p hp).le i hi'
  unowed := h.unowed
  owner hrun := .inl (h.owner hrun)
  dead_le _ := False.elim
  uncarried _ := False.elim

/-- **All that a run still does is to part**: if it is asked for a step, or for all it has left,
it waits if it owes that, says some words and gives no step, and if it is given up it says
nothing. From then on it is silent. -/
structure Parts (tell : Listener σ) (s : Sitting σ) (name : String) (paces : List Pace)
    (words : Play σ Unit) : Prop where
  next : s.perform tell (.next name) = (.ok (.next none),
    ({ s with table := ((paces.forM (Play.await tell) >>= fun _ => words).on s.table).2 } :
      Sitting σ).put name .ended)
  drain : s.perform tell (.drain name) = (.ok (.reports []),
    ({ s with table := ((paces.forM (Play.await tell) >>= fun _ => words).on s.table).2 } :
      Sitting σ).put name .ended)
  close : s.perform tell (.close name) = (.ok .done, s.put name .ended)
  silent : ∀ o ∈ [Operation.next name, .drain name, .close name],
    SilentFrom tell (s.perform tell o).2 name

theorem Parts.of_on {t' : Table σ} {words : Play σ Unit} (hs : s.Accounted dead)
    (htell : tell.MayFail) (hp : s.run? name = some p)
    (hwords : (p.paces.forM (Play.await tell) >>= fun _ => words).on s.table = (.ok (), t'))
    (hnext : (Play.nextPaced tell p).on s.table = (.ok (none, .ended), t'))
    (hclose : (Play.close p.run : Play σ Unit).on s.table = (.ok (), s.table)) :
    Parts tell s name p.paces words := by
  have hon : s.perform tell (.next name) =
      (.ok (.next none), ({ s with table := t' } : Sitting σ).put name .ended) :=
    withRun_of_ok hp hnext
  have hdrain : s.perform tell (.drain name) =
      (.ok (.reports []), ({ s with table := t' } : Sitting σ).put name .ended) := by
    refine withRun_of_ok hp ?_
    rw [Play.on_bind, Play.on_drain_of_none hnext]
    rfl
  have hclose' : s.perform tell (.close name) = (.ok .done, s.put name .ended) := by
    refine withRun_of_ok (a := ()) hp ?_
    rw [Play.on_bind, hclose]
    rfl
  refine ⟨by rw [hon, hwords], by rw [hdrain, hwords], hclose', fun o ho => ?_⟩
  have hended : (s.perform tell o).2.Dismissed name := by
    simp only [List.mem_cons, List.not_mem_nil, or_false] at ho
    rcases ho with rfl | rfl | rfl
    · rw [hon]
      exact .of_ended s name
    · rw [hdrain]
      exact .of_ended s name
    · rw [hclose']
      exact .of_ended s name
  exact hended.silentFrom (hs.perform htell o).accounted htell

/-- **A run that was halted parts with the words that it was stopped.** -/
theorem InOrder.parts_of_halted (h : s.InOrder fun _ => True) (htell : tell.Passive)
    (hp : s.run? name = some p) (hrun : p.run = .suspended r)
    (hg : Halted r.runId s.table.game) :
    Parts tell s name p.paces (Play.tellStopped tell r.mode) ∧
      ∀ o ∈ [Operation.next name, .drain name, .close name],
        SameButStatus s.table.game (s.perform tell o).2.table.game := by
  obtain ⟨audience, hwaits⟩ := Play.on_waits htell.mayFail p.paces s.table
  obtain ⟨_, t', hstopped, -, hsame⟩ :=
    Play.Within.tellStopped htell.staysWithin r.mode { s.table with audience } trivial
  have hwords : (p.paces.forM (Play.await tell) >>= fun _ =>
      Play.tellStopped tell r.mode).on s.table = (.ok (), t') := by
    rw [Play.on_bind, hwaits]
    exact hstopped
  have hnext : (Play.next tell p.run).on { s.table with audience } =
      (.ok (none, .ended), t') := by
    have hhalted := Play.on_next_of_halted (t := { s.table with audience }) htell hg
    rw [hrun, hhalted, Play.on_bind, hstopped]
    rfl
  have hclose : (Play.close p.run : Play σ Unit).on s.table = (.ok (), s.table) := by
    have hreleased : s.table.game.released r.runId = s.table.game := by
      rw [released_eq, hg.idle]
      rfl
    rw [hrun]
    exact (Play.on_release r.runId s.table).trans (by rw [hreleased])
  have hparts := Parts.of_on h.accounted htell.mayFail hp hwords
    (Play.on_nextPaced hwaits hnext) hclose
  refine ⟨hparts, fun o ho => ?_⟩
  simp only [List.mem_cons, List.not_mem_nil, or_false] at ho
  rcases ho with rfl | rfl | rfl
  · rw [hparts.next, hwords]
    exact hsame
  · rw [hparts.drain, hwords]
    exact hsame
  · rw [hparts.close]
    exact ⟨_, rfl⟩

/-- **A run that was superseded parts without a word.** -/
theorem InOrder.parts_of_lt (h : s.InOrder fun _ => True) (htell : tell.Passive)
    (hp : s.run? name = some p) (hrun : p.run = .suspended r)
    (hlt : r.runId < s.table.game.runId) :
    Parts tell s name p.paces (pure ()) ∧
      ∀ o ∈ [Operation.next name, .drain name, .close name],
        (s.perform tell o).2.table.game = s.table.game := by
  have hold : ∀ i, p.run.Carries i → i < s.table.game.runId := by
    intro i hi
    rw [hrun] at hi
    rwa [hi.eq (Run.carries_suspended r)]
  have hlost : ¬p.run.Carries s.table.game.runId := fun hi => Nat.lt_irrefl _ (hold _ hi)
  have hstarted : p.run.Started := by
    rw [hrun]
    trivial
  have hdismissed : s.Dismissed name := ⟨p, hp, hstarted, hold⟩
  obtain ⟨audience, hwaits⟩ := Play.on_waits htell.mayFail p.paces s.table
  have hwords : (p.paces.forM (Play.await tell) >>= fun _ => pure ()).on s.table =
      (.ok (), { s.table with audience }) := by
    rw [Play.on_bind, hwaits]
    rfl
  have hnext : (Play.next tell p.run).on { s.table with audience } =
      (.ok (none, .ended), { s.table with audience }) :=
    Play.on_next_of_lost hstarted hlost
  have hparts := Parts.of_on h.accounted htell.mayFail hp hwords
    (Play.on_nextPaced hwaits hnext) (Play.on_close_of_lost hlost)
  exact ⟨hparts, (hdismissed.mute htell.mayFail).game⟩

/-- The sitting some operations after the run in progress was asked to stop. -/
def onceStopped (tell : Listener σ) (s : Sitting σ) (later : List Operation) : Sitting σ :=
  ((s.perform tell .cancel).2.performAll tell later).2

/-- **The run of a given name is stopped** when the run in progress is asked to. -/
structure StopsFor (tell : Listener σ) (s : Sitting σ) (name : String) (mode : Mode) : Prop where
  /-- The game is given up at once, and what was done so far is kept. -/
  prompt : s.perform tell .cancel = (.ok .done, { s with table := { s.table with game :=
    { s.table.game with running := false, cancelled := true, phase := .cancelled } } })
  /-- As long as nothing has superseded the run, the game stays given up; and the run says that it
  was stopped when it is asked for a step. -/
  halted : ∀ later, (∀ o ∈ later, o.Leaves name) →
    ¬Superseded tell (s.perform tell .cancel).2 later →
      (s.onceStopped tell later).table.game.phase = .cancelled ∧
        (s.onceStopped tell later).table.game.running = false ∧
        (∃ p, (s.onceStopped tell later).run? name = some p ∧
          Parts tell (s.onceStopped tell later) name p.paces (Play.tellStopped tell mode)) ∧
        ∀ o ∈ [Operation.next name, .drain name, .close name],
          SameButStatus (s.onceStopped tell later).table.game
            ((s.onceStopped tell later).perform tell o).2.table.game
  /-- Once something has superseded it, the run says nothing, and leaves the game alone. -/
  superseded : ∀ later, (∀ o ∈ later, o.Leaves name) →
    Superseded tell (s.perform tell .cancel).2 later →
      (∃ p, (s.onceStopped tell later).run? name = some p ∧
        Parts tell (s.onceStopped tell later) name p.paces (pure ())) ∧
        ∀ o ∈ [Operation.next name, .drain name, .close name],
          ((s.onceStopped tell later).perform tell o).2.table.game =
            (s.onceStopped tell later).table.game

/-- **The run in progress stops when it is asked to**, in either mode and wherever it is suspended,
and whatever is done before it is asked for its next step. -/
theorem stopsFor_of_running (htell : tell.Passive) (rules : Rules) (maze : Maze) (audience : σ)
    (os : List Operation)
    (hs : s = (performAll tell ⟨(Game.new tell rules maze audience).2, []⟩ os).2)
    (hlive : s.table.game.running = true) (hp : s.run? name = some p)
    (hrun : p.run = .suspended r) (hid : r.runId = s.table.game.runId) :
    StopsFor tell s name r.mode := by
  have h : s.InOrder fun _ => True := hs ▸ inOrder_of_passive htell rules maze audience os
  have hcancel : s.perform tell .cancel =
      (.ok .done, { s with table := { s.table with game := s.table.game.stopped } }) := rfl
  have hin : (s.perform tell .cancel).2.InOrder fun _ => True :=
    (h.perform htell.callsBack .cancel).1
  have hhalted : Halted r.runId (s.perform tell .cancel).2.table.game := by
    rw [hid, hcancel]
    exact halted_stopped hlive
  have hp₁ : (s.perform tell .cancel).2.run? name = some p := hp
  refine ⟨?_, fun later hlater hnot => ?_, fun later hlater hsup => ?_⟩
  · have hstopped : s.table.game.stopped =
        { s.table.game with running := false, cancelled := true, phase := .cancelled } :=
      if_pos hlive
    rw [hcancel, hstopped]
  · have hin₂ := (hin.performAll htell.callsBack later).1
    have hhalted₂ := hin.halted_performAll htell hhalted hnot
    obtain ⟨p₂, hp₂, hrun₂⟩ := exists_run?_performAll tell hp₁ hlater
    obtain ⟨hparts, hgame⟩ := hin₂.parts_of_halted htell hp₂ (hrun₂.trans hrun) hhalted₂
    exact ⟨hhalted₂.phase, hhalted₂.idle, ⟨p₂, hp₂, hparts⟩, hgame⟩
  · have hin₂ := (hin.performAll htell.callsBack later).1
    -- numbers only grow, so the run will never carry that of the game again
    have hlt := hin.runId_lt_performAll htell hsup
    rw [hhalted.number] at hlt
    obtain ⟨p₂, hp₂, hrun₂⟩ := exists_run?_performAll tell hp₁ hlater
    obtain ⟨hparts, hgame⟩ := hin₂.parts_of_lt htell hp₂ (hrun₂.trans hrun) hlt
    exact ⟨⟨p₂, hp₂, hparts⟩, hgame⟩

/-- A sitting in which a run in live mode is in the middle of a line. -/
def midLine : Sitting Unit :=
  (performAll Listener.silent ⟨(Game.new Listener.silent {} Preset.easy.maze ()).2, []⟩
    [.openLive "live" "moveRight(); moveRight();\nmoveLeft();", .openBatch "other" "moveLeft();",
      .next "live"]).2

/-- What is left of the run. -/
def midLineReplay : Replay :=
  { mode := .live, runId := 2, index := 1, line := some 1, moves := [.right],
    lines := [(2, "moveLeft();")] }

theorem run_midLine : midLine.table.game.running = true ∧ midLine.table.game.runId = 2 ∧
    (midLine.run? "live").map (·.run) = some (.suspended midLineReplay) := by
  decide +kernel

/-- The run stops, be it that a single move is made in between or that the maze is started. -/
theorem stopsFor_of_running_midLine :
    (Listener.silent : Listener Unit).Passive ∧ midLine.table.game.running = true ∧
      ¬Superseded Listener.silent (midLine.perform Listener.silent .cancel).2
        [.step (.toward .left)] ∧
      Superseded Listener.silent (midLine.perform Listener.silent .cancel).2 [.reset] ∧
      StopsFor Listener.silent midLine "live" .live := by
  obtain ⟨hlive, hid, hrun⟩ := run_midLine
  obtain ⟨p, hp, hrun⟩ := Option.map_eq_some_iff.mp hrun
  refine ⟨Listener.passive_silent, hlive, ?_, .inl (.inl rfl), ?_⟩
  · simp [Superseded, Supersedes, Operation.restarts, Begins]
  · exact stopsFor_of_running Listener.passive_silent {} Preset.easy.maze () _ rfl hlive hp hrun
      hid.symm

end Sitting

end ScriptedMaze
