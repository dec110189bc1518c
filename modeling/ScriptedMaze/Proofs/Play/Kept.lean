import ScriptedMaze.Proofs.Play.Ownership

/-!
# What every operation keeps

Something that holds of a table at all times holds between operations, and often also in the
middle of them. Then it need not be followed through every play there is: the world of a game is
written at two places only, where a move is made and where a maze is started, and only there is
the robot shown. So it is enough that it is kept by any other write and by any other notice, and by
a move (`Play.Steady`): then it is kept by whatever is done in a maze. If besides a maze that is
started brings it about (`Play.Lasting`), it holds whatever is done (`Sitting.lasting_performAll`),
also where listeners call back or fail.
-/

namespace ScriptedMaze

/-- The notice says where the robot is shown. -/
def Notice.showsRobot : Notice → Bool
  | robot _ => true
  | _ => false

namespace Play

open Game

variable {σ α β : Type} {tell : Listener σ} {I : Table σ → Prop} {r : Replay}

/-- **The play keeps a property of tables**, whether it fails or not. -/
def Keeps (I : Table σ → Prop) (act : Play σ α) : Prop := ∀ t, I t → I (act.on t).2

namespace Keeps

theorem pure (a : α) : Keeps I (pure a : Play σ α) := fun _ h => h

theorem throw (f : GameFault) : Keeps I (throw f : Play σ α) := fun _ h => h

theorem game : Keeps I (Play.game : Play σ Game) := fun _ h => h

theorem bind {act : Play σ α} {next : α → Play σ β} (h : Keeps I act)
    (hnext : ∀ a, Keeps I (next a)) : Keeps I (act >>= next) := by
  intro t ht
  have hact := h t ht
  rw [on_bind]
  rcases hon : act.on t with ⟨f | a, t'⟩
  · rw [hon] at hact
    exact hact
  · rw [hon] at hact
    exact hnext a t' hact

theorem tryCatch {act : Play σ α} {mend : GameFault → Play σ α} (h : Keeps I act)
    (hmend : ∀ f, Keeps I (mend f)) : Keeps I (tryCatch act mend) := by
  intro t ht
  have hact := h t ht
  rw [on_tryCatch]
  rcases hon : act.on t with ⟨f | a, t'⟩
  · rw [hon] at hact
    exact hmend f t' hact
  · rw [hon] at hact
    exact hact

theorem forM {act : α → Play σ Unit} (h : ∀ a, Keeps I (act a)) (as : List α) :
    Keeps I (as.forM act) := by
  induction as with
  | nil => exact pure ()
  | cons a as ih => exact (h a).bind fun _ => ih

/-- A play that keeps the property wherever it starts may be looked at there. -/
theorem of_on {act : Play σ α} (h : ∀ t, ∃ act' : Play σ α, Keeps I act' ∧ act.on t = act'.on t) :
    Keeps I act := by
  intro t ht
  obtain ⟨act', hact, hon⟩ := h t
  rw [hon]
  exact hact t ht

end Keeps

/-- **A property of tables that is steady**: every write and every notice keeps it, but for those
that belong to a move or to the start of a maze. A move keeps it as a whole. -/
structure Steady (tell : Listener σ) (I : Table σ → Prop) : Prop where
  write : ∀ t g, g.world = t.game.world → I t → I { t with game := g }
  notice : ∀ n, n.showsRobot = false → Keeps I (tell n)
  move : ∀ d, Keeps I (makeMove tell d)

/-- **A property of tables that lasts**: it is steady, and a maze that is started brings it
about. -/
structure Lasting (tell : Listener σ) (I : Table σ → Prop) : Prop extends Steady tell I where
  reset : ∀ t, I ((reset tell).on t).2

namespace Steady

variable (h : Steady tell I)

include h

/-! ### Telling -/

theorem modifyGame {f : Game → Game} (hf : ∀ g, (f g).world = g.world) :
    Keeps I (Play.modifyGame f : Play σ Unit) :=
  fun t ht => h.write t (f t.game) (hf t.game) ht

theorem debug (text : String) : Keeps I (tell (.debug text)) := h.notice _ rfl

theorem report (text : String) (severity : Severity) : Keeps I (report tell text severity) :=
  .bind (h.modifyGame fun _ => rfl) fun _ => h.notice _ rfl

theorem tellDone (mode : Mode) : Keeps I (tellDone tell mode) := by
  cases mode <;> exact h.report _ _

theorem tellBlocked (r : Replay) (d : Direction) : Keeps I (tellBlocked tell r d) := by
  unfold Play.tellBlocked
  split <;> exact h.report _ _

theorem precheck (ds : List Direction) : Keeps I (precheck tell ds) := by
  cases ds with
  | nil => exact .pure ()
  | cons d ds =>
    refine Keeps.game.bind fun g => ?_
    dsimp only
    split
    · exact (h.debug _).bind fun _ => h.debug _
    · exact .pure ()

theorem readLine (n : Nat) (line : String) : Keeps I (readLine tell n line) := by
  refine Keeps.game.bind fun g => ?_
  split
  · exact (h.report _ _).bind fun _ => (h.debug _).bind fun _ => .pure none
  · dsimp only
    split
    · exact (h.report _ _).bind fun _ => .pure _
    · split
      · exact (h.debug _).bind fun _ => .pure _
      · exact .pure _

theorem await (p : Pace) : Keeps I (await tell p) := by
  unfold Play.await
  split
  · exact h.notice _ rfl
  · exact .pure ()

theorem solution : Keeps I (solution tell) := by
  refine Keeps.game.bind fun g => ?_
  split
  · exact .pure none
  · exact (h.debug _).bind fun _ => .pure _

/-! ### Single moves -/

theorem perform (a : Action) : Keeps I (perform tell a) := by
  unfold Play.perform
  split
  · exact Keeps.game.bind fun _ => .pure _
  · refine Keeps.game.bind fun g => ?_
    split
    · exact Keeps.game.bind fun _ => .pure _
    · exact h.move _

theorem step (a : Action) : Keeps I (step tell a) := by
  refine Keeps.game.bind fun g => ?_
  dsimp only
  split
  · exact .throw _
  · exact h.perform a

/-! ### Runs -/

theorem finish (id : Nat) (p : Phase) : Keeps I (finish id p : Play σ Unit) := by
  refine h.modifyGame fun g => ?_
  split <;> rfl

theorem release (id : Nat) : Keeps I (release id : Play σ Unit) := by
  refine h.modifyGame fun g => ?_
  split <;> rfl

theorem begin : Keeps I (begin tell) := by
  refine Keeps.game.bind fun g => ?_
  dsimp only
  split
  · exact .throw _
  · split
    · exact (h.report _ _).bind fun _ => .pure none
    · exact .bind (h.modifyGame fun _ => rfl) fun _ => .pure _

theorem stop (r : Replay) : Keeps I (stop tell r) := by
  refine (h.finish _ _).bind fun _ => ?_
  split <;> exact h.report _ _

theorem complete (r : Replay) : Keeps I (complete tell r) := by
  refine .of_on fun t => ?_
  by_cases hid : t.game.runId = r.runId
  · cases hc : t.game.cancelled with
    | true => exact ⟨_, h.stop r, on_complete_of_cancelled hid hc⟩
    | false =>
      refine ⟨Play.finish r.runId .completed >>= fun _ => Play.tellDone tell r.mode,
        (h.finish _ _).bind fun _ => h.tellDone r.mode, ?_⟩
      rw [on_complete hid hc, on_bind, on_finish]
  · exact ⟨_, .pure (), on_complete_of_ne hid⟩

theorem afterMove (r : Replay) (d : Direction) (rest : List Direction) (res : Report) :
    Keeps I (afterMove tell r d rest res) := by
  unfold Play.afterMove
  dsimp only
  split
  · exact (h.finish _ _).bind fun _ => (h.tellBlocked r d).bind fun _ => .pure _
  · split
    · exact (h.finish _ _).bind fun _ => .pure _
    · exact .pure _

theorem advance (r : Replay) (d : Direction) (rest : List Direction) :
    Keeps I (advance tell r d rest) := by
  refine .of_on fun t => ?_
  by_cases hid : t.game.runId = r.runId
  · cases hc : t.game.cancelled with
    | true => exact ⟨_, (h.stop r).bind fun _ => .pure _, on_advance_of_cancelled hid hc⟩
    | false => exact ⟨_, (h.perform _).bind fun _ => h.afterMove r d rest _, on_advance hid hc⟩
  · exact ⟨_, .pure _, on_advance_of_ne hid⟩

theorem nextLine (r : Replay) (lines : List (Nat × String)) :
    Keeps I (nextLine tell r lines) := by
  induction lines with
  | nil => exact (h.complete r).bind fun _ => .pure _
  | cons numbered lines ih =>
    obtain ⟨n, line⟩ := numbered
    refine Keeps.game.bind fun g => ?_
    split
    · exact (h.complete r).bind fun _ => .pure _
    · refine (h.readLine n line).bind fun ds? => ?_
      match ds? with
      | none => exact ih
      | some [] =>
        refine (Keeps.game.bind fun g => .pure _).bind fun _ => ?_
        split
        · exact .pure _
        · exact ih
      | some (d :: rest) => exact h.advance _ d rest

theorem resume (r : Replay) : Keeps I (resume tell r) := by
  unfold Play.resume
  split
  · exact h.advance r _ _
  · refine (Keeps.game.bind fun g => .pure _).bind fun _ => ?_
    split
    · exact .pure _
    · exact h.nextLine r r.lines

theorem guarded {act : Play σ α} (hact : Keeps I act) (id : Nat) : Keeps I (guarded id act) :=
  hact.tryCatch fun f => (h.release id).bind fun _ => .throw f

theorem next (run : Run) : Keeps I (next tell run) := by
  cases run with
  | ended => exact .pure _
  | suspended r => exact h.guarded (h.resume r) _
  | batch moves =>
    refine h.begin.bind fun id? => ?_
    cases id? with
    | none => exact .pure _
    | some id =>
      exact (h.precheck moves).bind fun _ => (h.report _ _).bind fun _ =>
        (h.debug _).bind fun _ => h.guarded (h.resume _) id
  | live source =>
    refine h.begin.bind fun id? => ?_
    cases id? with
    | none => exact .pure _
    | some id => exact (h.report _ _).bind fun _ => h.guarded (h.nextLine _ _) id

theorem nextPaced (p : PacedRun) : Keeps I (nextPaced tell p) := by
  refine (Keeps.forM h.await p.paces).bind fun _ => (h.next p.run).bind ?_
  rintro ⟨_ | res, run⟩
  · exact .pure _
  · exact .pure _

theorem take {seen : Report → Play σ Unit} (hseen : ∀ res, Keeps I (seen res)) (n : Nat)
    (p : PacedRun) : Keeps I (take tell seen n p) := by
  induction n generalizing p with
  | zero => exact .pure []
  | succ n ih =>
    refine (h.nextPaced p).bind ?_
    rintro ⟨_ | res, p'⟩
    · exact .pure []
    · exact (hseen res).bind fun _ => (ih p').bind fun rs => .pure (res :: rs)

theorem drain {seen : Report → Play σ Unit} (hseen : ∀ res, Keeps I (seen res)) (p : PacedRun) :
    Keeps I (drain tell p seen) :=
  Keeps.game.bind fun _ => h.take hseen _ p

theorem close (run : Run) : Keeps I (close run) := by
  cases run with
  | suspended r => exact h.release r.runId
  | batch ds => exact .pure ()
  | live source => exact .pure ()
  | ended => exact .pure ()

theorem announceReading : Keeps I (announceReading tell) := by
  refine Keeps.game.bind fun g => ?_
  dsimp only
  split
  · exact .throw _
  · exact h.report _ _

theorem openBatch (source : String) : Keeps I (openBatch tell source) := by
  refine h.announceReading.bind fun _ => Keeps.game.bind fun g => ?_
  split
  · exact (h.report _ _).bind fun _ => .throw _
  · exact (h.debug _).bind fun _ => .pure _

theorem openBatch? (source : String) : Keeps I (openBatch? tell source) := by
  refine Keeps.game.bind fun g => ?_
  split
  · exact (h.openBatch source).bind fun _ => .pure _
  · exact h.announceReading.bind fun _ => .pure none

theorem openLive (source : String) : Keeps I (openLive tell source) := by
  refine Keeps.game.bind fun g => ?_
  dsimp only
  split
  · exact .throw _
  · split
    · exact (h.report _ _).bind fun _ => .throw _
    · exact .pure _

/-! ### The game as a whole -/

theorem cancel : Keeps I (cancel : Play σ Unit) := by
  refine h.modifyGame fun g => ?_
  split <;> rfl

end Steady

theorem Lasting.setDifficulty (h : Lasting tell I) (name : String) :
    Keeps I (setDifficulty tell name) := by
  unfold Play.setDifficulty
  split
  · exact .throw _
  · refine .bind (h.modifyGame fun _ => rfl) fun _ => .bind (fun t _ => h.reset t) fun _ => ?_
    exact h.debug _

end Play

/-! ### Operations -/

namespace Sitting

variable {σ α : Type} {tell : Listener σ} {I : Table σ → Prop} {s : Sitting σ} {name : String}

theorem kept_only {act : Play σ α} (hact : Play.Keeps I act) (reply : α → Reply)
    (hs : I s.table) : I (s.only act reply).2.table := by
  rw [only_snd]
  exact hact s.table hs

theorem kept_openRun {act : Play σ Run} (hact : Play.Keeps I act) (name : String)
    (hs : I s.table) : I (s.openRun name act).2.table := by
  rw [openRun_table]
  exact hact s.table hs

theorem kept_withRun {act : PacedRun → Play σ (α × PacedRun)} (hact : ∀ p, Play.Keeps I (act p))
    (reply : α → Reply) (hs : I s.table) : I (s.withRun name act reply).2.table := by
  cases hp : s.run? name with
  | none =>
    rw [withRun_of_none hp]
    exact hs
  | some p =>
    rw [withRun_table hp]
    exact hact p s.table hs

/-- **What lasts is kept by every operation.** -/
theorem lasting_perform (h : Play.Lasting tell I) (hs : I s.table) (o : Operation) :
    I (s.perform tell o).2.table := by
  cases o with
  | step a => exact kept_only (h.step a) _ hs
  | openBatch name source => exact kept_openRun (h.openBatch source) name hs
  | openLive name source => exact kept_openRun (h.openLive source) name hs
  | next name => exact kept_withRun h.nextPaced _ hs
  | drain name =>
    exact kept_withRun (fun p => (h.drain (fun _ => .pure ()) p).bind fun _ => .pure _) _ hs
  | close name =>
    exact kept_withRun (fun p => (h.close p.run).bind fun _ => .pure _) _ hs
  | slow name seconds => exact kept_withRun (fun p => .pure _) _ hs
  | cancel => exact kept_only h.cancel _ hs
  | reset => exact kept_only (fun t _ => h.reset t) _ hs
  | setDifficulty preset => exact kept_only (h.setDifficulty preset) _ hs
  | solution => exact kept_only h.solution _ hs

/-- **So it is by any operations**, one after the other. -/
theorem lasting_performAll (h : Play.Lasting tell I) (hs : I s.table) (os : List Operation) :
    I (s.performAll tell os).2.table := by
  induction os generalizing s with
  | nil => exact hs
  | cons o os ih => exact ih (lasting_perform h hs o)

end Sitting

end ScriptedMaze
