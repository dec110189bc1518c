import ScriptedMaze.Proofs.Play.Dismissed

/-!
# What an operation comes to

As long as those who listen keep quiet, what an operation does to a game and the reports that
it gives are known but for the status. A game goes its **course** (`Game.Course`): it is stopped
or given back, a single move is made, a run that owns it makes moves, and each move that is made
gives one report.

There are four things that an operation can come to (`Sitting.Sequel`). It starts a maze; or it
is a single move that is not understood or comes too late, and then the whole table is left as
it was; or a run takes the game with it (`Sitting.Begins`), and then the game goes its course as
one that was taken; or the game just goes its course. Whatever holds of a game and of the
reports on it, after any operations, is shown by going through these.
-/

namespace ScriptedMaze

/-- A listener that never calls back is one that calls back, as far as anything relies on it. -/
theorem Listener.Passive.callsBack {σ : Type} {tell : Listener σ} (h : tell.Passive) :
    tell.CallsBack fun _ => True := by
  intro n t _
  obtain ⟨audience, hon⟩ := h n t
  exact .of_on hon ⟨trivial, .nothing⟩

/-! ### The course of a game -/

namespace Game

/-- **The course of a game from one operation to the next**, with the reports that are given on
the way. No maze is started, and no run takes the game. -/
inductive Course : Game → List Report → Game → Prop
  /-- Something is told. -/
  | told (g : Game) (s : Status) : Course g [] { g with status := s }
  /-- The run in progress is asked to stop. -/
  | stopped (g : Game) : Course g [] g.stopped
  /-- A run that was asked to stop gives the game back, or a run is given up. -/
  | calledOff (g : Game) : Course g [] { g with running := false, phase := .cancelled }
  /-- A single move is made while no run owns the game. -/
  | stepped {g : Game} (d : Direction) (hidle : g.running = false)
      (hfin : g.world.finished = false) : Course g [g.world.moveReport d 0 none] (g.moved d)
  /-- The run that owns the game is asked for a step. -/
  | played {g g' : Game} {limits : Script.Limits} {id index : Nat}
      {moves : List (Option Nat × Direction)} {q : Option Report × Run}
      (hrun : g.running = true) (h : Step limits id index g moves q g') :
      Course g q.1.toList g'
  | append {g g' g'' : Game} {rs rs' : List Report} : Course g rs g' → Course g' rs' g'' →
      Course g (rs ++ rs') g''

namespace Course

variable {g g' g'' : Game} {rs : List Report}

theorem refl (g : Game) : Course g [] g := .told g g.status

theorem of_sameButStatus (h : SameButStatus g g') : Course g [] g' := by
  obtain ⟨s, rfl⟩ := h
  exact .told g s

theorem then_told (h : Course g rs g') (hsame : SameButStatus g' g'') : Course g rs g'' := by
  have happ := h.append (of_sameButStatus hsame)
  rwa [List.append_nil] at happ

/-- The game keeps its number. -/
theorem runId_eq (h : Course g rs g') : g'.runId = g.runId := by
  induction h with
  | told => rfl
  | stopped => exact runId_stopped
  | calledOff => rfl
  | stepped => rfl
  | played _ h => cases h <;> rfl
  | append _ _ ih ih' => exact ih'.trans ih

end Course

/-- **A game has gone its course**, after a run has taken it if `begins` holds. -/
structure Gone (begins : Prop) (g : Game) (rs : List Report) (g' : Game) : Prop where
  taken : begins → Course g.taken rs g'
  untaken : ¬begins → Course g rs g'

namespace Gone

variable {begins : Prop} {g g' g'' : Game} {rs rs' : List Report}

theorem of_not (hnot : ¬begins) (h : Course g rs g') : Gone begins g rs g' :=
  ⟨fun hb => absurd hb hnot, fun _ => h⟩

theorem of_taken (hb : begins) (h : Course g.taken rs g') : Gone begins g rs g' :=
  ⟨fun _ => h, fun hnot => absurd hb hnot⟩

theorem append (h : Gone begins g rs g') (h' : Course g' rs' g'') :
    Gone begins g (rs ++ rs') g'' :=
  ⟨fun hb => (h.taken hb).append h', fun hnot => (h.untaken hnot).append h'⟩

end Gone

end Game

/-! ### Requests to runs -/

/-- **A run that takes the game** with its first step, if it is asked for it. -/
structure Run.Begins (run : Run) (g : Game) : Prop where
  unbegun : ¬run.Started
  idle : g.running = false
  unfinished : g.world.finished = false

namespace Play

open Game

variable {σ α : Type} {tell : Listener σ} {t : Table σ} {p : PacedRun} {run : Run}

/-- What is known of a play that succeeds, is known together. -/
theorem Succeeds.and {act : Play σ α} {P Q : α → Table σ → Prop} (h : Succeeds act t P)
    (h' : Succeeds act t Q) : Succeeds act t fun a t' => P a t' ∧ Q a t' := by
  obtain ⟨a, t', hon, hp⟩ := h
  obtain ⟨a', t'', hon', hq⟩ := h'
  cases hon.symm.trans hon'
  exact ⟨a, t', hon, hp, hq⟩

/-- **The course of a game that a run is asked for a step in.** -/
theorem gone_next (h : tell.Passive) (hset : t.game.Settled) (hfit : run.Fits t.game)
    (hmay : run.Started ∨ t.game.running = false) :
    Succeeds (next tell run) t fun q t' => Gone (run.Begins t.game) t.game q.1.toList t'.game := by
  by_cases hrun : run.Started
  · have hnot : ¬run.Begins t.game := fun hb => hb.unbegun hrun
    by_cases hown : run.Carries t.game.runId
    · -- the run carries the number of the game, and so it owns it or was asked to stop
      obtain ⟨r, rfl, hid⟩ := hown
      cases hc : t.game.cancelled with
      | true =>
        refine (succeeds_next_of_cancelled h hid.symm hc).mono ?_
        rintro _ t' ⟨rfl, hsame⟩
        rw [handedBack_of_eq hid.symm] at hsame
        exact .of_not hnot ((Course.calledOff t.game).then_told hsame)
      | false =>
        have hlive : t.game.running = true :=
          (hfit.live ⟨r, rfl, hid⟩).resolve_right (by simp [hc])
        have hfin := hset.unfinished hlive
        refine (step_suspended h.staysWithin trivial hid.symm hc hfin rfl).mono ?_
        rintro q t' ⟨-, hstep⟩
        exact .of_not hnot (.played hlive hstep)
    · exact .of_on (on_next_of_lost hrun hown) (.of_not hnot (.refl _))
  · have hidle : t.game.running = false := hmay.resolve_left hrun
    cases hfin : t.game.world.finished with
    | true =>
      refine (succeeds_next_of_finished h hidle hfin hrun).mono ?_
      rintro _ t' ⟨rfl, hsame⟩
      have hnot : ¬run.Begins t.game := fun hb => by cases hb.unfinished.symm.trans hfin
      exact .of_not hnot (.of_sameButStatus hsame)
    | false =>
      refine (step_begun h.staysWithin trivial hidle hfin hrun).mono ?_
      rintro q t' ⟨-, hstep⟩
      exact .of_taken ⟨hrun, hidle, hfin⟩ (.played rfl hstep)

/-- The waits of a run are no matter. -/
theorem gone_nextPaced (h : tell.Passive) (hset : t.game.Settled) (hfit : p.run.Fits t.game)
    (hmay : p.run.Started ∨ t.game.running = false) :
    Succeeds (nextPaced tell p) t fun q t' =>
      Gone (p.run.Begins t.game) t.game q.1.toList t'.game := by
  obtain ⟨audience, hwaits⟩ := on_waits h.mayFail p.paces t
  obtain ⟨q, t', hon, hgone⟩ := gone_next (t := { t with audience }) h hset hfit hmay
  exact .of_on (on_nextPaced hwaits hon) hgone

/-- **All requests to a run** are the first, and then those to a run that was begun. -/
theorem gone_take (h : tell.Passive) (n : Nat) (hset : t.game.Settled) (hfit : p.run.Fits t.game)
    (hmay : p.run.Started ∨ t.game.running = false) :
    Succeeds (take tell (fun _ => pure ()) (n + 1) p) t fun rs t' =>
      Gone (p.run.Begins t.game) t.game rs t'.game := by
  induction n generalizing p t with
  | zero =>
    refine (gone_nextPaced h hset hfit hmay).bind ?_
    rintro ⟨_ | res, p'⟩ t₁ hgone
    · exact .pure hgone
    · exact .pure hgone
  | succ n ih =>
    have hturn := succeeds_nextPaced h.callsBack.staysWithin trivial hset hfit hmay
    refine ((gone_nextPaced h hset hfit hmay).and hturn).bind ?_
    rintro ⟨_ | res, p'⟩ t₁ ⟨hgone, hends⟩
    · exact .pure hgone
    · have hstarted := hends.turn.started
      refine (ih hends.turn.settled hends.turn.fits (.inl hstarted)).bind fun rs t₂ hrest => ?_
      exact .pure (hgone.append (hrest.untaken fun hb => hb.unbegun hstarted))

theorem gone_drain (h : tell.Passive) (hset : t.game.Settled) (hfit : p.run.Fits t.game)
    (hmay : p.run.Started ∨ t.game.running = false) :
    Succeeds (drain tell p) t fun rs t' => Gone (p.run.Begins t.game) t.game rs t'.game :=
  .game (gone_take h _ hset hfit hmay)

/-- The course of a game when a run is given up. -/
theorem course_close (run : Run) (t : Table σ) :
    Succeeds (close run) t fun _ t' => Course t.game [] t'.game := by
  cases run with
  | suspended r =>
    refine .of_on (on_release r.runId t) ?_
    unfold released
    split
    · exact .calledOff _
    · exact .refl _
  | batch ds => exact .pure (.refl _)
  | live source => exact .pure (.refl _)
  | ended => exact .pure (.refl _)

/-! ### Single moves -/

/-- **A single move is made, or nothing is done at all.** -/
theorem perform_cases (h : tell.Passive) (hidle : t.game.running = false) (a : Action) :
    (∃ verdict : Verdict, verdict.ok = false ∧ ∃ action,
      (perform tell a).on t = (.ok (t.game.world.reported action verdict []), t)) ∨
      Succeeds (perform tell a) t fun res t' => Course t.game [res] t'.game := by
  unfold perform
  split
  · exact .inl ⟨.invalidAction, rfl, a.shown, on_conclude _ _ _ t⟩
  · rename_i d _
    rw [on_bind, on_game]
    dsimp only
    cases hfin : t.game.world.finished with
    | true =>
      simp only [if_true]
      exact .inl ⟨.gameOver, rfl, d.name, on_conclude _ _ _ t⟩
    | false =>
      refine .inr (.game ?_)
      simp only [hfin, Bool.false_eq_true, if_false]
      refine (succeeds_makeMove h.staysWithin trivial d).mono ?_
      rintro res t' ⟨rfl, -, hsame⟩
      have hworld : t'.game.world = (t.game.world.move d).1 := by
        obtain ⟨s, hs⟩ := hsame
        rw [hs]
        rfl
      rw [hworld]
      exact (Course.stepped d hidle hfin).then_told hsame

/-! ### Plays that write nothing but the status -/

/-- What is written is all that happens to the game. -/
theorem Account.rel {R : Game → Game → Prop} [IsPreorder Game R] (h : tell.Passive)
    {t' : Table σ} (hacc : Account tell R t t') : R t.game t'.game := by
  induction hacc with
  | nothing => exact refl_of R _
  | wrote hw _ ih => exact trans_of R hw ih
  | @heard t t' n _ ih =>
    obtain ⟨audience, hon⟩ := h n t
    rw [hon] at ih
    exact ih

theorem Writes.course {act : Play σ α} (hact : Writes tell SameButStatus act) (h : tell.Passive)
    (t : Table σ) : Course t.game [] (act.on t).2.game :=
  .of_sameButStatus ((hact t).rel h)

theorem sameButStatus_status (g : Game) (s : Status) : SameButStatus g { g with status := s } :=
  ⟨s, rfl⟩

theorem Writes.openBatch (source : String) :
    Writes tell SameButStatus (openBatch tell source) := by
  refine (announceReading sameButStatus_status).bind fun _ => game.bind fun g => ?_
  split
  · exact (report sameButStatus_status _ _).bind fun _ => throw _
  · exact (notice _).bind fun _ => pure _

theorem Writes.openLive (source : String) :
    Writes tell SameButStatus (openLive tell source) := by
  refine game.bind fun g => ?_
  dsimp only
  split
  · exact throw _
  · split
    · exact (report sameButStatus_status _ _).bind fun _ => throw _
    · exact pure _

end Play

/-! ### Operations -/

/-- The reports that are given with a reply. -/
def Reply.given : Reply → List Report
  | report r => [r]
  | next r? => r?.toList
  | reports rs => rs
  | _ => []

/-- **The operation starts a maze.** -/
def Operation.restarts : Operation → Bool
  | reset => true
  | setDifficulty preset => (Maze.named preset).isOk
  | _ => false

namespace Sitting

open Game

variable {σ α : Type} {tell : Listener σ} {s : Sitting σ} {name : String} {o : Operation}

/-- The reports that are given by what comes of an operation. -/
def gives : Except SittingFault Reply → List Report
  | .ok reply => reply.given
  | .error _ => []

/-- **A run takes the game with the operation.** -/
def Begins (s : Sitting σ) : Operation → Prop
  | .next name | .drain name => ∃ p, s.run? name = some p ∧ p.run.Begins s.table.game
  | _ => False

/-- **What an operation comes to** while those who listen keep quiet: the reports that it gives,
and the table that it leaves. -/
inductive Sequel (s : Sitting σ) (o : Operation) : List Report → Table σ → Prop
  /-- A maze is started. -/
  | restarted {t : Table σ} (ho : o.restarts = true) (m : Maze)
      (h : SameButStatus ({ s.table.game with maze := m } : Game).restarted t.game) :
      Sequel s o [] t
  /-- No move was tried, and nothing is done. -/
  | refused {verdict : Verdict} (ho : o.restarts = false) (hnot : ¬s.Begins o)
      (hverdict : verdict.ok = false) (action : String) :
      Sequel s o [s.table.game.world.reported action verdict []] s.table
  /-- The game goes its course. -/
  | gone {rs : List Report} {t : Table σ} (ho : o.restarts = false)
      (h : Gone (s.Begins o) s.table.game rs t.game) : Sequel s o rs t

theorem only_of_ok {act : Play σ α} {a : α} {t' : Table σ}
    (hon : act.on s.table = (.ok a, t')) (reply : α → Reply) :
    s.only act reply = (.ok (reply a), { s with table := t' }) := by
  unfold only play
  rw [hon]

theorem only_of_error {act : Play σ α} {f : GameFault} {t' : Table σ}
    (hon : act.on s.table = (.error f, t')) (reply : α → Reply) :
    s.only act reply = (.error (.game f), { s with table := t' }) := by
  unfold only play
  rw [hon]

theorem sequel_only {act : Play σ α} {reply : α → Reply} (ho : o.restarts = false)
    (hnot : ¬s.Begins o) (hreply : ∀ a, (reply a).given = [])
    (hact : Course s.table.game [] (act.on s.table).2.game) :
    s.Sequel o (gives (s.only act reply).1) (s.only act reply).2.table := by
  rcases hon : act.on s.table with ⟨f | a, t'⟩
  · rw [hon] at hact
    rw [only_of_error hon]
    exact .gone ho (.of_not hnot hact)
  · rw [hon] at hact
    rw [only_of_ok hon, gives, hreply]
    exact .gone ho (.of_not hnot hact)

/-- **A single move** is refused because a run owns the game, or is made, or nothing is done. -/
theorem sequel_step (htell : tell.Passive) (s : Sitting σ) (a : Action) :
    s.Sequel (.step a) (gives (s.only (Play.step tell a) .report).1)
      (s.only (Play.step tell a) .report).2.table := by
  cases hidle : s.table.game.running with
  | true =>
    rw [only_of_error (Play.on_step_of_running a hidle)]
    exact .gone rfl (.of_not id (.refl _))
  | false =>
    have hstep : (Play.step tell a).on s.table = (Play.perform tell a).on s.table :=
      Play.on_step a hidle
    rcases Play.perform_cases htell hidle a with ⟨_, hverdict, action, hon⟩ | ⟨_, _, hon, hcourse⟩
    · rw [only_of_ok (hstep.trans hon)]
      exact .refused rfl id hverdict action
    · rw [only_of_ok (hstep.trans hon)]
      exact .gone rfl (.of_not id hcourse)

theorem sequel_reset (htell : tell.Passive) (s : Sitting σ) :
    s.Sequel .reset (gives (s.only (Play.reset tell) fun _ => .done).1)
      (s.only (Play.reset tell) fun _ => .done).2.table := by
  obtain ⟨_, t', hon, hsame⟩ := Play.succeeds_reset htell s.table
  rw [only_of_ok hon]
  exact .restarted rfl s.table.game.maze hsame

theorem sequel_setDifficulty (htell : tell.Passive) (s : Sitting σ) (preset : String) :
    s.Sequel (.setDifficulty preset)
      (gives (s.only (Play.setDifficulty tell preset) fun _ => .done).1)
      (s.only (Play.setDifficulty tell preset) fun _ => .done).2.table := by
  cases hm : Maze.named preset with
  | error f =>
    have ho : Operation.restarts (.setDifficulty preset) = false := by
      rw [Operation.restarts, hm]
      rfl
    rw [only_of_error (Play.on_setDifficulty_of_error s.table hm)]
    exact .gone ho (.of_not id (.refl _))
  | ok m =>
    have ho : Operation.restarts (.setDifficulty preset) = true := by
      rw [Operation.restarts, hm]
      rfl
    obtain ⟨_, t', hon, hsame⟩ := Play.succeeds_setDifficulty htell s.table hm
    rw [only_of_ok hon]
    exact .restarted ho m hsame

theorem sequel_openRun {act : Play σ Run} (ho : o.restarts = false) (hnot : ¬s.Begins o)
    (hact : Course s.table.game [] (act.on s.table).2.game) :
    s.Sequel o (gives (s.openRun name act).1) (s.openRun name act).2.table := by
  have hgives : gives (s.openRun name act).1 = [] := by
    unfold openRun play
    rcases act.on s.table with ⟨_ | _, _⟩ <;> rfl
  rw [hgives]
  refine .gone ho (.of_not hnot ?_)
  rw [openRun_table]
  exact hact

/-- **A run is asked for something**, or it is refused, or there is none. -/
theorem sequel_withRun {act : PacedRun → Play σ (α × PacedRun)} {reply : α → Reply}
    (ho : o.restarts = false) (hnone : s.run? name = none → ¬s.Begins o)
    (hact : ∀ p, s.run? name = some p →
      Play.Succeeds (act p) s.table (fun a t' =>
        Gone (s.Begins o) s.table.game (reply a.1).given t'.game) ∨
      ¬s.Begins o ∧ ∃ f, (act p).on s.table = (.error f, s.table)) :
    s.Sequel o (gives (s.withRun name act reply).1) (s.withRun name act reply).2.table := by
  cases hp : s.run? name with
  | none =>
    rw [withRun_of_none hp]
    exact .gone ho (.of_not (hnone hp) (.refl _))
  | some p =>
    rcases hact p hp with ⟨⟨a, p'⟩, t', hon, hgone⟩ | ⟨hnot, f, hon⟩
    · rw [withRun_of_ok hp hon]
      exact .gone ho hgone
    · rw [withRun_of_error hp hon]
      exact .gone ho (.of_not hnot (.refl _))

/-- The run that is asked for a step begins, if the operation lets a run begin. -/
theorem begins_iff {p : PacedRun} (hp : s.run? name = some p)
    (ho : o = .next name ∨ o = .drain name) : s.Begins o ↔ p.run.Begins s.table.game := by
  rcases ho with rfl | rfl
  all_goals
    refine ⟨?_, fun hb => ⟨p, hp, hb⟩⟩
    rintro ⟨q, hq, hb⟩
    rwa [Option.some.inj (hp.symm.trans hq)]

theorem not_begins_of_none (hp : s.run? name = none) (ho : o = .next name ∨ o = .drain name) :
    ¬s.Begins o := by
  rcases ho with rfl | rfl
  all_goals
    rintro ⟨q, hq, -⟩
    cases hp.symm.trans hq

/-- **What every operation comes to.** -/
theorem InOrder.sequel (h : s.InOrder fun _ => True) (htell : tell.Passive) (o : Operation) :
    s.Sequel o (gives (s.perform tell o).1) (s.perform tell o).2.table := by
  have hset := h.settled
  cases o with
  | step a => exact sequel_step htell s a
  | openBatch name source =>
    exact sequel_openRun rfl id ((Play.Writes.openBatch source).course htell _)
  | openLive name source =>
    exact sequel_openRun rfl id ((Play.Writes.openLive source).course htell _)
  | next name =>
    refine sequel_withRun rfl (fun hp => not_begins_of_none hp (.inl rfl)) fun p hp => ?_
    rw [begins_iff hp (.inl rfl)]
    rcases started_or_idle p s.table.game with hmay | ⟨hrun, hbusy⟩
    · exact .inl (Play.gone_nextPaced htell hset (h.fits name p hp) hmay)
    · have hnot : ¬p.run.Begins s.table.game := fun hb => by cases hb.idle.symm.trans hbusy
      refine .inr ⟨hnot, .busy, ?_⟩
      exact Play.on_nextPaced_of_busy hrun (h.unowed name p hp hrun) hbusy
  | drain name =>
    refine sequel_withRun rfl (fun hp => not_begins_of_none hp (.inr rfl)) fun p hp => ?_
    rw [begins_iff hp (.inr rfl)]
    rcases started_or_idle p s.table.game with hmay | ⟨hrun, hbusy⟩
    · refine .inl ((Play.gone_drain htell hset (h.fits name p hp) hmay).bind fun _ _ h' => ?_)
      exact .pure h'
    · have hnot : ¬p.run.Begins s.table.game := fun hb => by cases hb.idle.symm.trans hbusy
      refine .inr ⟨hnot, .busy, ?_⟩
      rw [Play.on_bind, Play.on_drain_of_busy hrun (h.unowed name p hp hrun) hbusy]
  | close name =>
    refine sequel_withRun rfl (fun _ => id) fun p hp => .inl ?_
    exact (Play.course_close p.run _).bind fun _ t' h' => .pure (.of_not id h')
  | slow name seconds =>
    refine sequel_withRun rfl (fun _ => id) fun p hp => .inl ?_
    exact .of_on (Play.on_pure _ _) (.of_not id (.refl _))
  | cancel => exact sequel_only rfl id (fun _ => rfl) (.stopped _)
  | reset => exact sequel_reset htell s
  | setDifficulty preset => exact sequel_setDifficulty htell s preset
  | solution => exact sequel_only rfl id (fun _ => rfl) (Play.Writes.solution.course htell _)

/-- **A sitting is in order at any time**, if those who listen keep quiet. -/
theorem inOrder_of_passive (htell : tell.Passive) (rules : Rules) (maze : Maze) (audience : σ)
    (os : List Operation) :
    InOrder (fun _ => True) (performAll tell ⟨(Game.new tell rules maze audience).2, []⟩ os).2 := by
  have hnew : InOrder (fun _ => True) ⟨(Game.new tell rules maze audience).2, []⟩ :=
    inOrder_new htell.callsBack rules maze trivial
  exact (hnew.performAll htell.callsBack os).1

end Sitting

end ScriptedMaze
