import ScriptedMaze.Proofs.Play.Telling
import ScriptedMaze.Proofs.Play.Turns

/-!
# What is done while those who listen keep quiet

A listener that never calls back leaves nothing in the game but the status that was told. So
what a play does to the game is then known but for the status (`Game.SameButStatus`), and this
is said here of what can be done besides making moves: a maze is started or changed, a script is
opened, a run is asked for a step that it does not make because the flag has been reached
(`Play.succeeds_next_of_finished`) or because it has been told to stop
(`Play.succeeds_next_of_cancelled`), and a way to the flag is asked for.
-/

namespace ScriptedMaze

namespace Listener

theorem passive_silent {σ : Type} : (silent : Listener σ).Passive :=
  fun _ t => ⟨t.audience, rfl⟩

end Listener

namespace Play

open Game

variable {σ : Type} {tell : Listener σ} {t : Table σ} {source : String}

/-! ### Starting a maze -/

/-- A listener that keeps quiet leaves the whole game as it was. -/
theorem Within.quiet (h : tell.Passive) (n : Notice) :
    Within (fun _ => True) (fun g g' => g' = g) (tell n) := by
  intro t _
  obtain ⟨audience, hon⟩ := h n t
  exact .of_on hon ⟨trivial, rfl⟩

instance : IsPreorder Game fun g g' => g' = g where
  refl _ := rfl
  trans _ _ _ h h' := h'.trans h

theorem Within.drawAll {fit : σ → Prop} {R : Game → Game → Prop} [IsPreorder Game R]
    (h : ∀ n, Within fit R (tell n)) : Within fit R (drawAll tell) := by
  refine game fun g => bind (forM (fun y => ?_) _) fun _ => game fun g' => h _
  exact game fun g' => forM (fun x => h _) _

/-- **The maze is started over**, and the player is told so. -/
theorem succeeds_reset_told (h : tell.Passive) (t : Table σ) :
    Succeeds (reset tell) t fun _ t' => t'.game = { t.game.restarted with
      status := ⟨"Maze reset (" ++ t.game.maze.name ++ "). Ready for your next attempt.", .plain⟩ } := by
  unfold reset
  refine (Within.quiet h (.debug "Resetting maze...") t trivial).bind fun _ t₁ h₁ => ?_
  refine .modifyGame ?_
  refine (Within.drawAll (Within.quiet h) { t₁ with game := t₁.game.restarted } trivial).bind
    fun _ t₂ h₂ => .game (.modifyGame ?_)
  refine (Within.quiet h _ _ trivial).mono fun _ t₃ h₃ => ?_
  rw [h₃.2, h₂.2, h₁.2]
  rfl

theorem succeeds_reset (h : tell.Passive) (t : Table σ) :
    Succeeds (reset tell) t fun _ t' => SameButStatus t.game.restarted t'.game :=
  (succeeds_reset_told h t).mono fun _ _ h' => ⟨_, h'⟩

/-- The maze is changed to another one and started. -/
theorem succeeds_setDifficulty (h : tell.Passive) (t : Table σ) {name : String} {m : Maze}
    (hm : Maze.named name = .ok m) :
    Succeeds (setDifficulty tell name) t fun _ t' =>
      SameButStatus ({ t.game with maze := m } : Game).restarted t'.game := by
  unfold setDifficulty
  rw [hm]
  refine .modifyGame ((succeeds_reset h { t with game := { t.game with maze := m } }).bind
    fun _ t₁ h₁ => ?_)
  refine (Within.notice h.staysWithin _ t₁ trivial).mono fun _ t₂ h₂ => ?_
  exact trans_of SameButStatus h₁ h₂.2

/-- A maze that does not exist changes nothing. -/
theorem on_setDifficulty_of_error (t : Table σ) {name : String} {f : MazeFault}
    (hf : Maze.named name = .error f) :
    (setDifficulty tell name).on t = (.error (.maze f), t) := by
  unfold setDifficulty
  rw [hf]
  rfl

/-! ### Opening a script -/

theorem on_announceReading_of_running (h : t.game.running = true) :
    (announceReading tell).on t = (.error .busy, t) := by
  unfold announceReading
  rw [on_bind, on_game]
  simp only [h, if_true]
  rfl

theorem succeeds_announceReading (h : tell.Passive) (hidle : t.game.running = false) :
    Succeeds (announceReading tell) t fun _ t' => SameButStatus t.game t'.game := by
  refine .game ?_
  simp only [hidle, Bool.false_eq_true, if_false]
  exact (Within.report h.staysWithin _ _ t trivial).mono fun _ _ h' => h'.2

/-- **A script whose moves are known is opened as a run of them.** -/
theorem succeeds_openBatch (h : tell.Passive) (hidle : t.game.running = false)
    {ds : List Direction} (hds : Script.commands t.game.rules.limits source = .ok ds) :
    Succeeds (openBatch tell source) t fun run t' =>
      run = .batch ds ∧ SameButStatus t.game t'.game := by
  have htell := h.staysWithin
  obtain ⟨_, t₁, hon₁, -, hsame₁⟩ := Within.report htell "Parsing code..." .info t trivial
  have hopen := on_openBatch_of_told source hidle hon₁
  have hrules : t₁.game.rules = t.game.rules := by
    obtain ⟨s, hs⟩ := hsame₁
    rw [hs]
  rw [hrules, hds] at hopen
  refine .of_eq hopen ?_
  refine (Within.notice htell _ t₁ trivial).bind fun _ t₂ h₂ => .pure ⟨rfl, ?_⟩
  exact trans_of SameButStatus hsame₁ h₂.2

/-- What is reported becomes the status, and nothing else is written. -/
theorem exists_on_report (h : tell.Passive) (text : String) (severity : Severity) (t : Table σ) :
    ∃ audience, (report tell text severity).on t =
      (.ok (), ⟨{ t.game with status := ⟨text, severity⟩ }, audience⟩) := by
  unfold report
  rw [on_bind, on_modifyGame]
  exact h _ { t with game := { t.game with status := ⟨text, severity⟩ } }

/-- **A script that is rejected is not opened**, and the player is told why. -/
theorem exists_on_openBatch_of_rejected (h : tell.Passive) (hidle : t.game.running = false)
    {f : Script.Fault} (hf : Script.commands t.game.rules.limits source = .error f) :
    ∃ audience, (openBatch tell source).on t = (.error (.script f),
      ⟨{ t.game with status := ⟨"Code error: " ++ f.message, .error⟩ }, audience⟩) := by
  obtain ⟨a₁, hon₁⟩ := exists_on_report h "Parsing code..." .info t
  obtain ⟨a₂, hon₂⟩ := exists_on_report h ("Code error: " ++ f.message) .error
    ⟨{ t.game with status := ⟨"Parsing code...", .info⟩ }, a₁⟩
  refine ⟨a₂, ?_⟩
  rw [on_openBatch_of_told source hidle hon₁]
  dsimp only
  rw [hf]
  dsimp only
  rw [on_bind, hon₂]
  rfl

/-- So nothing but the status is changed. -/
theorem exists_on_openBatch_of_error (h : tell.Passive) (hidle : t.game.running = false)
    {f : Script.Fault} (hf : Script.commands t.game.rules.limits source = .error f) :
    ∃ t', (openBatch tell source).on t = (.error (.script f), t') ∧
      SameButStatus t.game t'.game := by
  obtain ⟨audience, hon⟩ := exists_on_openBatch_of_rejected h hidle hf
  exact ⟨_, hon, _, rfl⟩

/-- Where the reading of a script comes to its end, the script is opened as always. -/
theorem on_openBatch?_of_some {result : Except Script.Fault (List Direction)}
    (h : Script.commands? t.game.rules.limits source = some result) :
    (openBatch? tell source).on t =
      (openBatch tell source >>= fun run => pure (some run)).on t := by
  unfold openBatch?
  rw [on_bind, on_game]
  dsimp only
  rw [h]

/-- Otherwise it is only announced. -/
theorem on_openBatch?_of_none (h : Script.commands? t.game.rules.limits source = none) :
    (openBatch? tell source).on t = (announceReading tell >>= fun _ => pure none).on t := by
  unfold openBatch?
  rw [on_bind, on_game]
  dsimp only
  rw [h]

/-- **A blank script is not opened in live mode**, and the player is told why. -/
theorem exists_on_openLive_of_rejected (h : tell.Passive) (hidle : t.game.running = false)
    (hblank : Text.blank source = true) :
    ∃ audience, (openLive tell source).on t = (.error (.script .emptyProgram),
      ⟨{ t.game with status := ⟨"Code error: " ++ Script.Fault.emptyProgram.message, .error⟩ },
        audience⟩) := by
  obtain ⟨audience, hon⟩ :=
    exists_on_report h ("Code error: " ++ Script.Fault.emptyProgram.message) .error t
  refine ⟨audience, ?_⟩
  rw [on_openLive_of_blank tell hidle hblank, on_bind, hon]
  rfl

/-- So nothing but the status is changed. -/
theorem exists_on_openLive_of_blank (h : tell.Passive) (hidle : t.game.running = false)
    (hblank : Text.blank source = true) :
    ∃ t', (openLive tell source).on t = (.error (.script .emptyProgram), t') ∧
      SameButStatus t.game t'.game := by
  obtain ⟨audience, hon⟩ := exists_on_openLive_of_rejected h hidle hblank
  exact ⟨_, hon, _, rfl⟩

/-! ### Runs that make no move -/

/-- **A run does not begin where the flag has been reached.** -/
theorem succeeds_next_of_finished (h : tell.Passive) (hidle : t.game.running = false)
    (hfin : t.game.world.finished = true) {run : Run} (hrun : ¬run.Started) :
    Succeeds (next tell run) t fun p t' => p = (none, .ended) ∧ SameButStatus t.game t'.game := by
  have hbegin : Succeeds (begin tell) t fun id? t' =>
      id? = none ∧ SameButStatus t.game t'.game := by
    refine .of_eq (on_begin_of_finished hidle hfin) ?_
    exact (Within.report h.staysWithin _ _ t trivial).bind fun _ _ h' => .pure ⟨rfl, h'.2⟩
  cases run with
  | batch ds =>
    refine hbegin.bind ?_
    rintro _ _ ⟨rfl, hsame⟩
    exact .pure ⟨rfl, hsame⟩
  | live source =>
    refine hbegin.bind ?_
    rintro _ _ ⟨rfl, hsame⟩
    exact .pure ⟨rfl, hsame⟩
  | suspended r => exact absurd trivial hrun
  | ended => exact absurd trivial hrun

/-- All requests to such a run are none. -/
theorem succeeds_drain_of_finished (h : tell.Passive) (hidle : t.game.running = false)
    (hfin : t.game.world.finished = true) {run : Run} (hrun : ¬run.Started) :
    Succeeds (drain tell ⟨run, []⟩) t fun rs t' => rs = [] ∧ SameButStatus t.game t'.game := by
  obtain ⟨_, t', hon, rfl, hsame⟩ := succeeds_next_of_finished h hidle hfin hrun
  exact .game (.of_on (on_take_of_none hon) ⟨rfl, hsame⟩)

theorem Within.stop {r : Replay} (h : tell.Passive) (t : Table σ) :
    Succeeds (stop tell r) t fun _ t' =>
      SameButStatus (t.game.handedBack r.runId .cancelled) t'.game :=
  .of_eq (on_stop tell r t) ((Within.tellStopped h.staysWithin r.mode
    { t with game := t.game.handedBack r.runId .cancelled } trivial).mono fun _ _ h' => h'.2)

/-- **A run that has been told to stop says so** when it is asked for a step, wherever it was
suspended, and does nothing else. -/
theorem on_resume_of_cancelled {r : Replay} (hid : t.game.runId = r.runId)
    (hc : t.game.cancelled = true) :
    (resume tell r).on t = (stop tell r >>= fun _ => pure (none, .ended)).on t := by
  cases hm : r.moves with
  | cons d rest =>
    rw [resume_of_cons hm]
    exact on_advance_of_cancelled hid hc
  | nil =>
    -- there is a line to come or none, and either way the run is complete
    have hcomplete : (complete tell r >>= fun _ =>
        pure ((none, .ended) : Option Report × Run)).on t =
        (stop tell r >>= fun _ => pure (none, .ended)).on t := by
      rw [on_bind, on_complete_of_cancelled hid hc, on_bind]
    rw [on_resume_of_nil hm hid]
    cases hlines : r.lines with
    | nil => exact hcomplete
    | cons numbered lines => exact (on_nextLine_of_cancelled hc).trans hcomplete

/-- **It gives the game back**, and makes no move. -/
theorem succeeds_next_of_cancelled (h : tell.Passive) {r : Replay} (hid : t.game.runId = r.runId)
    (hc : t.game.cancelled = true) :
    Succeeds (next tell (.suspended r)) t fun p t' =>
      p = (none, .ended) ∧ SameButStatus (t.game.handedBack r.runId .cancelled) t'.game := by
  have hresume : Succeeds (resume tell r) t fun p t' =>
      p = (none, .ended) ∧ SameButStatus (t.game.handedBack r.runId .cancelled) t'.game :=
    .of_eq (on_resume_of_cancelled hid hc)
      ((Within.stop h t).bind fun _ _ h' => .pure ⟨rfl, h'⟩)
  obtain ⟨p, t', hon, hp⟩ := hresume
  exact .of_on (on_guarded_of_ok hon) hp

/-! ### Asking for a way to the flag -/

/-- If a way is found, its script is offered, and the game is as it was. -/
theorem exists_on_solution (h : tell.Passive) {way : List Route.Step}
    (hroute : t.game.world.route? = some way) :
    ∃ audience, (solution tell).on t =
      (.ok (some (Route.script t.game.rules.limits.bound (way.map Route.Step.direction))),
        { t with audience }) := by
  obtain ⟨audience, hon⟩ :=
    h (.debug ("Solution moves: " ++ Route.letters (way.map Route.Step.direction))) t
  refine ⟨audience, ?_⟩
  unfold solution
  rw [on_bind, on_game]
  dsimp only
  rw [hroute]
  dsimp only
  rw [on_bind, hon]
  rfl

theorem on_solution_of_none (hroute : t.game.world.route? = none) :
    (solution tell).on t = (.ok none, t) := by
  unfold solution
  rw [on_bind, on_game]
  dsimp only
  rw [hroute]
  rfl

end Play

end ScriptedMaze
