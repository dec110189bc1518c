import ScriptedMaze.Play.Sitting
import ScriptedMaze.Proofs.Maze.Moves

/-!
# The parts of a turn

A run writes to the game at few places: it takes the game (`Game.taken`), it makes a
move, and it gives the game back (`Game.handedBack`, `Game.released`). Everything else
that it does is to look at the game and to tell something. Here each play that a run is
made of is cut at these places, so that what is said of a turn elsewhere never opens
more than one of them.

A move writes the world and counts, and then it only tells (`Play.on_makeMove`,
`Play.tellMove`). A step of a run that makes a move looks at the game first, and what it
does with the report on the move is `Play.afterMove`.
-/

namespace ScriptedMaze

namespace Game

variable {g : Game} {id : Nat} {p : Phase}

/-- The game after a run has taken it. -/
def taken (g : Game) : Game :=
  { g with runId := g.runId + 1, cancelled := false, running := true, phase := .running }

/-- The game after a run has given it back in some phase. -/
def handedBack (id : Nat) (p : Phase) (g : Game) : Game :=
  if g.runId = id then { g with running := false, phase := p } else g

/-- The game after a run was given up. -/
def released (id : Nat) (g : Game) : Game :=
  if g.runId = id ∧ g.running then { g with running := false, phase := .cancelled } else g

/-- The game after a move. -/
def moved (d : Direction) (g : Game) : Game :=
  { g with world := (g.world.move d).1, steps := g.steps + 1 }

@[simp] theorem runId_handedBack : (g.handedBack id p).runId = g.runId := by
  unfold handedBack
  split <;> rfl

@[simp] theorem rules_handedBack : (g.handedBack id p).rules = g.rules := by
  unfold handedBack
  split <;> rfl

theorem handedBack_of_eq (h : g.runId = id) :
    g.handedBack id p = { g with running := false, phase := p } :=
  if_pos h

theorem handedBack_of_ne (h : g.runId ≠ id) : g.handedBack id p = g :=
  if_neg h

/-- A run that owns the game is given up as one that gives the game back. -/
theorem released_eq (id : Nat) (g : Game) :
    g.released id = if g.running = true then g.handedBack id .cancelled else g := by
  unfold released handedBack
  by_cases hrun : g.running = true
  · simp only [hrun, and_true, if_true]
  · simp only [hrun, and_false, Bool.false_eq_true, if_false]

end Game

namespace Play

variable {σ : Type} {tell : Listener σ} {t : Table σ} {r : Replay} {d : Direction}
  {rest : List Direction} {id : Nat}

/-! ### Looking at the game and writing to it -/

theorem on_stale (id : Nat) (t : Table σ) :
    (stale id : Play σ Bool).on t = (.ok (decide (t.game.runId ≠ id)), t) :=
  rfl

theorem on_finish (id : Nat) (p : Phase) (t : Table σ) :
    (finish id p : Play σ Unit).on t = (.ok (), { t with game := t.game.handedBack id p }) :=
  rfl

theorem on_release (id : Nat) (t : Table σ) :
    (release id : Play σ Unit).on t = (.ok (), { t with game := t.game.released id }) :=
  rfl

theorem on_begin_of_running (h : t.game.running = true) :
    (begin tell).on t = (.error .busy, t) := by
  unfold begin
  rw [on_bind, on_game]
  simp only [h, if_true]
  rfl

theorem on_begin_of_finished (h : t.game.running = false) (hfin : t.game.world.finished = true) :
    (begin tell).on t =
      (report tell "Flag already captured. Reset to play again." .info >>=
        fun _ => pure none).on t := by
  unfold begin
  rw [on_bind, on_game]
  simp only [h, hfin, Bool.false_eq_true, if_false, if_true]

theorem on_begin (h : t.game.running = false) (hfin : t.game.world.finished = false) :
    (begin tell).on t = (.ok (some (t.game.runId + 1)), { t with game := t.game.taken }) := by
  unfold begin
  rw [on_bind, on_game]
  simp only [h, hfin, Bool.false_eq_true, if_false]
  rfl

/-! ### Moves -/

/-- A report tells of the game as it stands when the report is made. -/
theorem on_conclude (action : String) (verdict : Verdict) (events : List Event) (t : Table σ) :
    (conclude action verdict events).on t =
      (.ok { action, verdict, events, robot := t.game.world.robot, hasKey := t.game.world.hasKey,
             finished := t.game.world.finished, picture := t.game.world.picture }, t) :=
  rfl

/-- What is told of a move that was made in a world, and the report on it. -/
def tellMove (tell : Listener σ) (d : Direction) (before after : World) :
    Outcome → Play σ Report
  | .blocked => do
    tell (.debug "Move blocked.")
    conclude d.name .blocked [.blocked d before.robot (before.target d)]
  | .moved effect => do
    tell (.cell before.robot)
    let events ← announce tell after.robot effect
    tell (.robot after.robot)
    conclude d.name (.moved effect) (.move d before.robot after.robot :: events)

/-- **A move writes to the game first, and then it is told.** -/
theorem on_makeMove (tell : Listener σ) (d : Direction) (t : Table σ) :
    (makeMove tell d).on t =
      (tellMove tell d t.game.world (t.game.world.move d).1 (t.game.world.move d).2).on
        { t with game := t.game.moved d } := by
  unfold makeMove
  rw [on_bind, on_game]
  dsimp only
  rw [on_bind, on_modifyGame]
  unfold Game.moved
  rcases hm : t.game.world.move d with ⟨after, outcome⟩
  cases outcome with
  | blocked =>
    obtain rfl := World.eq_of_move_blocked hm
    rfl
  | moved effect => rfl

theorem on_perform_of_finished (h : t.game.world.finished = true) :
    (perform tell (.toward d)).on t = (conclude d.name .gameOver).on t := by
  change (game >>= _).on t = _
  rw [on_bind, on_game]
  simp only [h, if_true]

theorem on_perform (h : t.game.world.finished = false) :
    (perform tell (.toward d)).on t = (makeMove tell d).on t := by
  change (game >>= _).on t = _
  rw [on_bind, on_game]
  simp only [h, Bool.false_eq_true, if_false]

theorem on_step_of_running (a : Action) (h : t.game.running = true) :
    (step tell a).on t = (.error .busy, t) := by
  unfold step
  rw [on_bind, on_game]
  simp only [h, if_true]
  rfl

theorem on_step (a : Action) (h : t.game.running = false) :
    (step tell a).on t = (perform tell a).on t := by
  unfold step
  rw [on_bind, on_game]
  simp only [h, Bool.false_eq_true, if_false]

/-! ### Steps -/

/-- What is told when a run was blocked. -/
def tellBlocked (tell : Listener σ) (r : Replay) (d : Direction) : Play σ Unit :=
  match r.mode, r.line with
  | .live, some line =>
    report tell ("Blocked on line " ++ toString line ++ " (" ++ d.name ++ ")") .error
  | _, _ =>
    report tell ("Invalid move '" ++ d.name ++ "' at step " ++ toString (r.index + 1) ++ ".") .error

/-- What a run does with the report on a move that it made. -/
def afterMove (tell : Listener σ) (r : Replay) (d : Direction) (rest : List Direction)
    (res : Report) : Play σ (Option Report × Run) :=
  let res := { res with index := r.index + 1, line := r.line }
  if res.verdict = .blocked then do
    finish r.runId .blocked
    tellBlocked tell r d
    return (some res, .ended)
  else if res.finished then do
    finish r.runId .finished
    return (some res, .ended)
  else return (some res, .suspended { r with index := r.index + 1, moves := rest })

theorem on_advance_of_ne (h : t.game.runId ≠ r.runId) :
    (advance tell r d rest).on t = (.ok (none, .ended), t) := by
  unfold advance
  rw [on_bind, on_stale]
  simp only [h, ne_eq, not_false_eq_true, decide_true, if_true]
  rfl

theorem on_advance_of_cancelled (h : t.game.runId = r.runId) (hc : t.game.cancelled = true) :
    (advance tell r d rest).on t = (stop tell r >>= fun _ => pure (none, .ended)).on t := by
  unfold advance
  rw [on_bind, on_stale]
  simp only [h, ne_eq, not_true_eq_false, decide_false, Bool.false_eq_true, if_false]
  rw [on_bind, on_game]
  simp only [hc, if_true]

theorem on_advance (h : t.game.runId = r.runId) (hc : t.game.cancelled = false) :
    (advance tell r d rest).on t =
      (perform tell (.toward d) >>= afterMove tell r d rest).on t := by
  unfold advance
  rw [on_bind, on_stale]
  simp only [h, ne_eq, not_true_eq_false, decide_false, Bool.false_eq_true, if_false]
  rw [on_bind, on_game]
  simp only [hc, Bool.false_eq_true, if_false]
  -- the two ways to tell that the run was blocked go on alike
  congr 2
  funext res
  unfold afterMove tellBlocked
  rcases r with ⟨_ | _, _, _, _ | _, _, _⟩ <;> rfl

/-! ### Ends -/

/-- What is told when a run was told to stop. -/
def tellStopped (tell : Listener σ) : Mode → Play σ Unit
  | .live => report tell "Live mode stopped." .info
  | .batch => report tell "Execution stopped." .info

/-- What is told when a run has nothing left to do. -/
def tellDone (tell : Listener σ) : Mode → Play σ Unit
  | .live => report tell "Live mode finished." .success
  | .batch => report tell "Execution finished. Adjust code if needed." .info

theorem on_stop (tell : Listener σ) (r : Replay) (t : Table σ) :
    (stop tell r).on t =
      (tellStopped tell r.mode).on
        { t with game := t.game.handedBack r.runId .cancelled } := by
  unfold stop
  rw [on_bind, on_finish]
  cases r.mode <;> rfl

theorem on_complete_of_ne (h : t.game.runId ≠ r.runId) :
    (complete tell r).on t = (.ok (), t) := by
  unfold complete
  rw [on_bind, on_stale]
  simp only [h, ne_eq, not_false_eq_true, decide_true, if_true]
  rfl

theorem on_complete_of_cancelled (h : t.game.runId = r.runId) (hc : t.game.cancelled = true) :
    (complete tell r).on t = (stop tell r).on t := by
  unfold complete
  rw [on_bind, on_stale]
  simp only [h, ne_eq, not_true_eq_false, decide_false, Bool.false_eq_true, if_false]
  rw [on_bind, on_game]
  simp only [hc, if_true]

theorem on_complete (h : t.game.runId = r.runId) (hc : t.game.cancelled = false) :
    (complete tell r).on t =
      (tellDone tell r.mode).on { t with game := t.game.handedBack r.runId .completed } := by
  unfold complete
  rw [on_bind, on_stale]
  simp only [h, ne_eq, not_true_eq_false, decide_false, Bool.false_eq_true, if_false]
  rw [on_bind, on_game]
  simp only [hc, Bool.false_eq_true, if_false]
  rw [on_bind, on_finish]
  cases r.mode <;> rfl

/-! ### Lines -/

/-- The moves of the lines to come are those of the next line and of those after it. -/
theorem movesOfLines_cons (limits : Script.Limits) (n : Nat) (line : String)
    (lines : List (Nat × String)) :
    movesOfLines limits ((n, line) :: lines) =
      ((Script.lineCommands limits line).toOption.getD []).length + movesOfLines limits lines := by
  rw [movesOfLines]
  cases Script.lineCommands limits line with
  | ok ds => rfl
  | error f => exact (Nat.zero_add _).symm

/-- What a run does with the moves of a line that it has read. -/
def afterLine (tell : Listener σ) (r : Replay) (n : Nat) (lines : List (Nat × String)) :
    Option (List Direction) → Play σ (Option Report × Run)
  | none => nextLine tell r lines
  | some [] => do
    if ← stale r.runId then return (none, .ended)
    nextLine tell r lines
  | some (d :: rest) => advance tell { r with line := some n, lines } d rest

theorem on_nextLine_of_cancelled {n : Nat} {line : String} {lines : List (Nat × String)}
    (h : t.game.cancelled = true) :
    (nextLine tell r ((n, line) :: lines)).on t =
      (complete tell r >>= fun _ => pure (none, .ended)).on t := by
  unfold nextLine
  rw [on_bind, on_game]
  simp only [h, if_true]

theorem on_nextLine {n : Nat} {line : String} {lines : List (Nat × String)}
    (h : t.game.cancelled = false) :
    (nextLine tell r ((n, line) :: lines)).on t =
      (readLine tell n line >>= afterLine tell r n lines).on t := by
  rw [nextLine, on_bind, on_game]
  simp only [h, Bool.false_eq_true, if_false]
  rw [on_bind, on_bind]
  rcases (readLine tell n line).on t with ⟨_ | _ | _ | _, _⟩ <;> rfl

theorem on_afterLine_nil_of_ne {n : Nat} {lines : List (Nat × String)}
    (h : t.game.runId ≠ r.runId) :
    (afterLine tell r n lines (some [])).on t = (.ok (none, .ended), t) := by
  unfold afterLine
  rw [on_bind, on_stale]
  simp only [h, ne_eq, not_false_eq_true, decide_true, if_true]
  rfl

theorem on_afterLine_nil {n : Nat} {lines : List (Nat × String)} (h : t.game.runId = r.runId) :
    (afterLine tell r n lines (some [])).on t = (nextLine tell r lines).on t := by
  unfold afterLine
  rw [on_bind, on_stale]
  simp only [h, ne_eq, not_true_eq_false, decide_false, Bool.false_eq_true, if_false]

/-! ### Turns -/

theorem resume_of_cons (h : r.moves = d :: rest) : resume tell r = advance tell r d rest := by
  unfold resume
  rw [h]

theorem on_resume_of_nil (hm : r.moves = []) (h : t.game.runId = r.runId) :
    (resume tell r).on t = (nextLine tell r r.lines).on t := by
  unfold resume
  rw [hm, on_bind, on_stale]
  simp only [h, ne_eq, not_true_eq_false, decide_false, Bool.false_eq_true, if_false]

/-- **A run whose number the game has lost does nothing.** -/
theorem on_resume_of_ne (h : t.game.runId ≠ r.runId) :
    (resume tell r).on t = (.ok (none, .ended), t) := by
  cases hm : r.moves with
  | cons d rest => rw [resume_of_cons hm, on_advance_of_ne h]
  | nil =>
    unfold resume
    rw [hm, on_bind, on_stale]
    simp only [h, ne_eq, not_false_eq_true, decide_true, if_true]
    rfl

/-- What is done for a run is done as it is, if it does not fail. -/
theorem on_guarded_of_ok {α : Type} {act : Play σ α} {a : α} {t' : Table σ}
    (h : act.on t = (.ok a, t')) : (guarded id act).on t = (.ok a, t') := by
  rw [guarded, on_tryCatch, h]

/-! ### Opening a run -/

variable {t' : Table σ} {source : String}

theorem on_openBatch_of_running (source : String) (h : t.game.running = true) :
    (openBatch tell source).on t = (.error .busy, t) := by
  unfold openBatch announceReading
  rw [on_bind, on_bind, on_game]
  simp only [h, if_true]
  rfl

/-- A script is read after the player was told that it is. -/
theorem on_openBatch_of_told (source : String) (h : t.game.running = false)
    (htold : (report tell "Parsing code..." .info).on t = (.ok (), t')) :
    (openBatch tell source).on t =
      match Script.commands t'.game.rules.limits source with
      | .error f =>
        (report tell ("Code error: " ++ f.message) .error >>= fun _ => throw (.script f)).on t'
      | .ok ds =>
        (tell (.debug ("Parsed command sequence: " ++ Script.describe ds)) >>= fun _ =>
          pure (.batch ds)).on t' := by
  unfold openBatch announceReading
  rw [on_bind, on_bind, on_game]
  simp only [h, Bool.false_eq_true, if_false]
  rw [htold]
  dsimp only
  rw [on_bind, on_game]
  dsimp only
  cases Script.commands t'.game.rules.limits source <;> rfl

theorem on_openLive_of_running (source : String) (h : t.game.running = true) :
    (openLive tell source).on t = (.error .busy, t) := by
  unfold openLive
  rw [on_bind, on_game]
  simp only [h, if_true]
  rfl

theorem on_openLive_of_blank (tell : Listener σ) (h : t.game.running = false)
    (hblank : Text.blank source = true) :
    (openLive tell source).on t =
      (report tell ("Code error: " ++ Script.Fault.emptyProgram.message) .error >>= fun _ =>
        throw (.script .emptyProgram)).on t := by
  unfold openLive
  rw [on_bind, on_game]
  simp only [h, hblank, Bool.false_eq_true, if_false, if_true]
  rw [on_bind, on_bind]
  rcases (report tell _ _).on t with ⟨_ | _, _⟩ <;> rfl

theorem on_openLive (h : t.game.running = false) (hblank : Text.blank source = false) :
    (openLive tell source).on t = (.ok (.live source), t) := by
  unfold openLive
  rw [on_bind, on_game]
  simp only [h, hblank, Bool.false_eq_true, if_false]
  rfl

/-! ### Waits -/

/-- Where no wait is owed, there is none. -/
theorem on_forM_await {ps : List Pace} (h : ∀ p ∈ ps, p.owed = false) :
    (ps.forM (await tell)).on t = (.ok (), t) := by
  induction ps with
  | nil => rfl
  | cons p ps ih =>
    obtain ⟨hp, hps⟩ := List.forall_mem_cons.mp h
    have hawait : (await tell p).on t = (.ok (), t) := by
      unfold await
      rw [hp, Bool.false_and]
      rfl
    rw [List.forM, on_bind, hawait]
    exact ih hps

/-! ### All steps of a run -/

variable {n : Nat} {run run' : Run} {res : Report}

/-- **A step is made after what is owed was waited for**; once there is one, another wait is
owed. -/
theorem on_nextPaced {p : PacedRun} {res? : Option Report}
    (hwaits : (p.paces.forM (await tell)).on t = (.ok (), t₁))
    (hnext : (next tell p.run).on t₁ = (.ok (res?, run'), t')) :
    (nextPaced tell p).on t =
      (.ok (res?, res?.elim .ended fun _ => ⟨run', p.paces.map fun q => { q with owed := true }⟩),
        t') := by
  unfold nextPaced
  rw [on_bind, hwaits]
  dsimp only
  rw [on_bind, hnext]
  cases res? <;> rfl

theorem on_nextPaced_of_some (h : (next tell run).on t = (.ok (some res, run'), t')) :
    (nextPaced tell ⟨run, []⟩).on t = (.ok (some res, ⟨run', []⟩), t') :=
  on_nextPaced (on_forM_await (List.forall_mem_nil _)) h

theorem on_nextPaced_of_none {p : PacedRun} (hwait : ∀ q ∈ p.paces, q.owed = false)
    (h : (next tell p.run).on t = (.ok (none, run'), t')) :
    (nextPaced tell p).on t = (.ok (none, .ended), t') :=
  on_nextPaced (on_forM_await hwait) h

theorem on_take_of_some (h : (next tell run).on t = (.ok (some res, run'), t')) :
    (take tell (fun _ => pure ()) (n + 1) ⟨run, []⟩).on t =
      (take tell (fun _ => pure ()) n ⟨run', []⟩ >>= fun rs => pure (res :: rs)).on t' := by
  rw [take, on_bind, on_nextPaced_of_some h]
  rfl

theorem on_take_of_none (h : (next tell run).on t = (.ok (none, run'), t')) :
    (take tell (fun _ => pure ()) (n + 1) ⟨run, []⟩).on t = (.ok [], t') := by
  rw [take, on_bind, on_nextPaced_of_none (by simp) h]
  rfl

/-- A run that has no step to give at the first request gives none at all. -/
theorem on_drain_of_none {p p' : PacedRun} (h : (nextPaced tell p).on t = (.ok (none, p'), t')) :
    (drain tell p).on t = (.ok [], t') := by
  unfold drain
  rw [on_bind, on_game]
  dsimp only
  rw [take, on_bind, h]
  rfl

end Play

end ScriptedMaze
