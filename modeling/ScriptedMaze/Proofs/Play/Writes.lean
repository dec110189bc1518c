import ScriptedMaze.Proofs.Play.Turns

/-!
# What a run writes itself

Between the first and the last thing that a run does in a step, listeners are told of
notices, and what they do to the game is not the run's doing. An **account**
(`Play.Account`) of a stretch of play keeps the two apart: it goes from one table to
another by writes of the run and by notices that are heard, one after the other.

Whatever the listener does, also where it fails, every step of a run has an account in
which the run never touches the maze or the number of the game, and in which it writes
nothing but the status at any moment at which the game carries a number that is not the
run's own (`Game.OwnWrite`). A run that loses its number in the middle of a step does no
more to the game from there on than to tell the player something.
-/

namespace ScriptedMaze

namespace Game

/-- **What a run with a given number may write**: neither the number of the game nor its
maze, and nothing but the status while the game carries another number. -/
structure OwnWrite (id : Nat) (g g' : Game) : Prop where
  runId : g'.runId = g.runId
  maze : g'.maze = g.maze
  status_only : g.runId ≠ id → ∃ s, g' = { g with status := s }

variable {g : Game} {id : Nat}

theorem ownWrite_status (id : Nat) (g : Game) (s : Status) :
    OwnWrite id g { g with status := s } :=
  ⟨rfl, rfl, fun _ => ⟨s, rfl⟩⟩

theorem ownWrite_handedBack (id : Nat) (p : Phase) (g : Game) :
    OwnWrite id g (g.handedBack id p) := by
  unfold handedBack
  split
  · rename_i hid
    exact ⟨rfl, rfl, fun hne => absurd hid hne⟩
  · exact ⟨rfl, rfl, fun _ => ⟨g.status, rfl⟩⟩

theorem ownWrite_released (id : Nat) (g : Game) : OwnWrite id g (g.released id) := by
  rw [released_eq]
  split
  · exact ownWrite_handedBack id .cancelled g
  · exact ⟨rfl, rfl, fun _ => ⟨g.status, rfl⟩⟩

theorem ownWrite_moved (h : g.runId = id) (d : Direction) : OwnWrite id g (g.moved d) :=
  ⟨rfl, rfl, fun hne => absurd h hne⟩

end Game

namespace Play

variable {σ α β : Type} {tell : Listener σ} {write : Game → Game → Prop}
  {t t' t'' : Table σ} {r : Replay} {id : Nat}

/-- **An account of how one table became another**: by writes to the game of one kind, and
by notices that were heard. -/
inductive Account (tell : Listener σ) (write : Game → Game → Prop) : Table σ → Table σ → Prop
  | nothing {t : Table σ} : Account tell write t t
  | wrote {t t' : Table σ} {g : Game} (h : write t.game g) :
      Account tell write { t with game := g } t' → Account tell write t t'
  | heard {t t' : Table σ} (n : Notice) :
      Account tell write ((tell n).on t).2 t' → Account tell write t t'

theorem Account.trans (h : Account tell write t t') (h' : Account tell write t' t'') :
    Account tell write t t'' := by
  induction h with
  | nothing => exact h'
  | wrote hw _ ih => exact .wrote hw (ih h')
  | heard n _ ih => exact .heard n (ih h')

/-- **A play that writes to the game in one way only**, whatever comes of it and wherever it
starts. -/
def Writes (tell : Listener σ) (write : Game → Game → Prop) (act : Play σ α) : Prop :=
  ∀ t, Account tell write t (act.on t).2

namespace Writes

theorem pure (a : α) : Writes tell write (pure a : Play σ α) :=
  fun _ => .nothing

theorem throw (f : GameFault) : Writes tell write (throw f : Play σ α) :=
  fun _ => .nothing

/-- An account of the first part of a play goes on with the second. -/
theorem account_bind {act : Play σ α} {next : α → Play σ β} {t₀ : Table σ}
    (h : Account tell write t₀ (act.on t).2) (hnext : ∀ a, Writes tell write (next a)) :
    Account tell write t₀ ((act >>= next).on t).2 := by
  rw [on_bind]
  rcases hon : act.on t with ⟨_ | a, t'⟩
  · rw [hon] at h
    exact h
  · rw [hon] at h
    exact h.trans (hnext a t')

theorem bind {act : Play σ α} {next : α → Play σ β} (h : Writes tell write act)
    (hnext : ∀ a, Writes tell write (next a)) : Writes tell write (act >>= next) :=
  fun t => account_bind (h t) hnext

theorem game : Writes tell write (Play.game : Play σ Game) :=
  fun _ => .nothing

theorem notice (n : Notice) : Writes tell write (tell n) :=
  fun _ => .heard n .nothing

theorem modifyGame {f : Game → Game} (h : ∀ g, write g (f g)) :
    Writes tell write (Play.modifyGame f : Play σ Unit) :=
  fun t => .wrote (h t.game) .nothing

theorem tryCatch {act : Play σ α} {mend : GameFault → Play σ α} (h : Writes tell write act)
    (hmend : ∀ f, Writes tell write (mend f)) : Writes tell write (tryCatch act mend) := by
  intro t
  have hact := h t
  rw [on_tryCatch]
  rcases hon : act.on t with ⟨f | a, t'⟩
  · rw [hon] at hact
    exact hact.trans (hmend f t')
  · rw [hon] at hact
    exact hact

theorem forM {act : α → Play σ Unit} (h : ∀ a, Writes tell write (act a)) (as : List α) :
    Writes tell write (as.forM act) := by
  induction as with
  | nil => exact pure ()
  | cons a as ih => exact (h a).bind fun _ => ih

/-! ### The plays that a run is made of -/

theorem await (p : Pace) : Writes tell write (await tell p) := by
  unfold Play.await
  split
  · exact notice _
  · exact pure ()

theorem conclude (action : String) (verdict : Verdict) (events : List Event) :
    Writes tell write (conclude action verdict events) :=
  game.bind fun _ => pure _

theorem solution : Writes tell write (solution tell) := by
  refine game.bind fun g => ?_
  split
  · exact pure none
  · exact (notice _).bind fun _ => pure _

theorem drawAll : Writes tell write (drawAll tell) := by
  refine game.bind fun g => (forM (fun y => ?_) _).bind fun _ => game.bind fun _ => notice _
  exact game.bind fun g' => forM (fun x => notice _) _

/-! ### Plays that only tell -/

section Telling

variable (hs : ∀ g s, write g { g with status := s })

include hs

theorem report (text : String) (severity : Severity) :
    Writes tell write (report tell text severity) :=
  (modifyGame fun g => hs g ⟨text, severity⟩).bind fun _ => notice _

theorem announce (p : Point) (e : Effect) : Writes tell write (announce tell p e) := by
  cases e with
  | none => exact pure []
  | keyCollected =>
    exact (notice _).bind fun _ => (report hs _ _).bind fun _ => (notice _).bind fun _ => pure _
  | doorOpened =>
    exact (notice _).bind fun _ => (report hs _ _).bind fun _ => (notice _).bind fun _ => pure _
  | flagReached =>
    exact game.bind fun g => (report hs _ _).bind fun _ => (notice _).bind fun _ => pure _

theorem tellMove (d : Direction) (before after : World) (outcome : Outcome) :
    Writes tell write (tellMove tell d before after outcome) := by
  cases outcome with
  | blocked => exact (notice _).bind fun _ => conclude _ _ _
  | moved effect =>
    exact (notice _).bind fun _ => (announce hs _ effect).bind fun _ =>
      (notice _).bind fun _ => conclude _ _ _

theorem tellStopped (mode : Mode) : Writes tell write (tellStopped tell mode) := by
  cases mode <;> exact report hs _ _

theorem tellDone (mode : Mode) : Writes tell write (tellDone tell mode) := by
  cases mode <;> exact report hs _ _

theorem tellBlocked (r : Replay) (d : Direction) :
    Writes tell write (tellBlocked tell r d) := by
  unfold Play.tellBlocked
  split <;> exact report hs _ _

omit hs in
theorem precheck (ds : List Direction) : Writes tell write (precheck tell ds) := by
  cases ds with
  | nil => exact pure ()
  | cons d ds =>
    refine game.bind fun g => ?_
    dsimp only
    split
    · exact (notice _).bind fun _ => notice _
    · exact pure ()

theorem readLine (n : Nat) (line : String) : Writes tell write (readLine tell n line) := by
  refine game.bind fun g => ?_
  split
  · exact (report hs _ _).bind fun _ => (notice _).bind fun _ => pure none
  · dsimp only
    split
    · exact (report hs _ _).bind fun _ => pure _
    · split
      · exact (notice _).bind fun _ => pure _
      · exact pure _

/-- What is told between the moment at which a run takes the game and its first line or
move. -/
theorem opening (run : Run) : Writes tell write (opening tell run) := by
  cases run with
  | batch ds => exact (precheck ds).bind fun _ => (report hs _ _).bind fun _ => notice _
  | live source => exact report hs _ _
  | suspended r => exact pure ()
  | ended => exact pure ()

theorem announceReading : Writes tell write (announceReading tell) := by
  refine game.bind fun g => ?_
  dsimp only
  split
  · exact throw _
  · exact report hs _ _

end Telling

/-! ### The steps of a run -/

section Own

variable {act : Play σ α}

theorem finish (p : Phase) : Writes tell (Game.OwnWrite id) (finish id p) :=
  modifyGame (Game.ownWrite_handedBack id p)

theorem release : Writes tell (Game.OwnWrite id) (release id) :=
  modifyGame (Game.ownWrite_released id)

/-- **A move is written at once**, while the game carries the run's number. -/
theorem account_perform (h : t.game.runId = id) (d : Direction) :
    Account tell (Game.OwnWrite id) t ((perform tell (.toward d)).on t).2 := by
  cases hfin : t.game.world.finished with
  | true =>
    rw [on_perform_of_finished hfin]
    exact conclude _ _ _ t
  | false =>
    rw [on_perform hfin, on_makeMove]
    exact .wrote (Game.ownWrite_moved h d) (tellMove (Game.ownWrite_status id) d _ _ _ _)

theorem stop (r : Replay) : Writes tell (Game.OwnWrite r.runId) (stop tell r) := by
  intro t
  rw [on_stop]
  exact .wrote (Game.ownWrite_handedBack r.runId .cancelled t.game)
    (tellStopped (Game.ownWrite_status r.runId) r.mode _)

theorem complete (r : Replay) : Writes tell (Game.OwnWrite r.runId) (complete tell r) := by
  intro t
  by_cases hid : t.game.runId = r.runId
  · cases hc : t.game.cancelled with
    | true =>
      rw [on_complete_of_cancelled hid hc]
      exact stop r t
    | false =>
      rw [on_complete hid hc]
      exact .wrote (Game.ownWrite_handedBack r.runId .completed t.game)
        (tellDone (Game.ownWrite_status r.runId) r.mode _)
  · rw [on_complete_of_ne hid]
    exact .nothing

theorem afterMove (r : Replay) (d : Direction) (rest : List Direction) (res : Report) :
    Writes tell (Game.OwnWrite r.runId) (afterMove tell r d rest res) := by
  unfold Play.afterMove
  dsimp only
  split
  · exact (finish _).bind fun _ =>
      (tellBlocked (Game.ownWrite_status r.runId) r d).bind fun _ => pure _
  · split
    · exact (finish _).bind fun _ => pure _
    · exact pure _

/-- **The step at a move**: nothing is written before it is known that the game carries the
run's number. -/
theorem advance (r : Replay) (d : Direction) (rest : List Direction) :
    Writes tell (Game.OwnWrite r.runId) (advance tell r d rest) := by
  intro t
  by_cases hid : t.game.runId = r.runId
  · cases hc : t.game.cancelled with
    | true =>
      rw [on_advance_of_cancelled hid hc]
      exact ((stop r).bind fun _ => pure _) t
    | false =>
      rw [on_advance hid hc]
      exact account_bind (account_perform hid d) fun res => afterMove r d rest res
  · rw [on_advance_of_ne hid]
    exact .nothing

theorem nextLine (r : Replay) (lines : List (Nat × String)) :
    Writes tell (Game.OwnWrite r.runId) (nextLine tell r lines) := by
  induction lines with
  | nil => exact (complete r).bind fun _ => pure _
  | cons numbered lines ih =>
    obtain ⟨n, line⟩ := numbered
    intro t
    cases hc : t.game.cancelled with
    | true =>
      rw [on_nextLine_of_cancelled hc]
      exact ((complete r).bind fun _ => pure _) t
    | false =>
      rw [on_nextLine hc]
      refine account_bind (readLine (Game.ownWrite_status r.runId) n line t) fun ds? t' => ?_
      match ds? with
      | none => exact ih t'
      | some [] =>
        by_cases hid : t'.game.runId = r.runId
        · rw [on_afterLine_nil hid]
          exact ih t'
        · rw [on_afterLine_nil_of_ne hid]
          exact .nothing
      | some (d :: rest) => exact advance { r with line := some n, lines } d rest t'

theorem resume (r : Replay) : Writes tell (Game.OwnWrite r.runId) (resume tell r) := by
  intro t
  cases hm : r.moves with
  | cons d rest =>
    rw [resume_of_cons hm]
    exact advance r d rest t
  | nil =>
    by_cases hid : t.game.runId = r.runId
    · rw [on_resume_of_nil hm hid]
      exact nextLine r r.lines t
    · rw [on_resume_of_ne hid]
      exact .nothing

theorem guarded (h : Writes tell (Game.OwnWrite id) act) :
    Writes tell (Game.OwnWrite id) (guarded id act) :=
  h.tryCatch fun f => release.bind fun _ => throw f

/-- **What a run writes in one step.** -/
theorem next_suspended (r : Replay) :
    Writes tell (Game.OwnWrite r.runId) (next tell (.suspended r)) :=
  (resume r).guarded

/-- **What a run writes when it is given up.** -/
theorem close_suspended (r : Replay) :
    Writes tell (Game.OwnWrite r.runId) (close (.suspended r)) :=
  release

/-- What is made of the answer of a run writes nothing. -/
theorem paced (p : PacedRun) (q : Option Report × Run) :
    Writes tell write (match q with
      | (some res, run) => Pure.pure (some res, ⟨run, p.paces.map fun q => { q with owed := true }⟩)
      | (none, _) => Pure.pure (none, .ended) : Play σ (Option Report × PacedRun)) := by
  rcases q with ⟨_ | _, _⟩ <;> exact pure _

/-- The waits of a run write nothing. -/
theorem nextPaced {p : PacedRun} (h : Writes tell write (next tell p.run)) :
    Writes tell write (nextPaced tell p) :=
  (forM await p.paces).bind fun _ => h.bind fun q => paced p q

/-- **What a run writes in its first step**: it takes the game, and from there on it writes
under the number that it was given. -/
theorem account_next_of_taken {run : Run} (hrun : ¬run.Started) (h : t.game.running = false)
    (hfin : t.game.world.finished = false) :
    Account tell (Game.OwnWrite (t.game.runId + 1)) { t with game := t.game.taken }
      ((next tell run).on t).2 := by
  rw [on_next_of_idle hrun h hfin]
  have honset : Writes tell (Game.OwnWrite (t.game.runId + 1))
      (onset tell (t.game.runId + 1) run) := by
    cases run with
    | batch ds => exact resume { mode := .batch, runId := t.game.runId + 1, moves := ds }
    | live source =>
      exact nextLine { mode := .live, runId := t.game.runId + 1, lines := numberedLines source } _
    | suspended r => exact absurd trivial hrun
    | ended => exact absurd trivial hrun
  exact ((opening (Game.ownWrite_status _) run).bind fun _ => honset.guarded) _

theorem account_nextPaced_of_taken {p : PacedRun} (hrun : ¬p.run.Started)
    (hwait : ∀ q ∈ p.paces, q.owed = false) (h : t.game.running = false)
    (hfin : t.game.world.finished = false) :
    Account tell (Game.OwnWrite (t.game.runId + 1)) { t with game := t.game.taken }
      ((Play.nextPaced tell p).on t).2 := by
  unfold Play.nextPaced
  rw [on_bind, on_forM_await hwait]
  exact account_bind (account_next_of_taken hrun h hfin) fun q => paced p q

end Own

end Writes

end Play

end ScriptedMaze
