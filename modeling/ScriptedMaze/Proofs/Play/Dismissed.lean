import ScriptedMaze.Proofs.Play.Held
import ScriptedMaze.Proofs.Play.Quiet
import ScriptedMaze.Proofs.Play.Undisturbed

/-!
# Runs that were dismissed

When the maze is started over, the game gets another number, and a run that was begun under
an earlier one finds that the game is no longer its own. Such a run is **dismissed**
(`Sitting.Dismissed`), and it stays so whatever else is done, since the numbers of a game
only grow. A dismissed run is **mute** (`Sitting.Mute`): it gives no step any more, and does
nothing to the game. This holds also where listeners fail.

A run that was opened before the maze was started over, but not begun, carries no number
that it could have lost. It is not dismissed: with its first step it takes the game, as if it
had been opened afterwards. Both halves are stated in
`Sitting.silentFrom_of_started_and_takesGame`.
-/

namespace ScriptedMaze

/-! ### The runs that operations are about -/

namespace Operation

/-- The name of the run that is opened. -/
def opens? : Operation → Option String
  | openBatch name _ | openLive name _ => some name
  | _ => none

/-- The name of the run that an operation is about. -/
def run? : Operation → Option String
  | openBatch name _ | openLive name _ | next name | drain name | close name | slow name _ =>
    some name
  | _ => none

end Operation

namespace Sitting

variable {σ α : Type} {tell : Listener σ} {s : Sitting σ} {name other : String} {o : Operation}

theorem run?_only (s : Sitting σ) (act : Play σ α) (reply : α → Reply) (name : String) :
    (s.only act reply).2.run? name = s.run? name := by
  rw [only_snd]
  rfl

theorem run?_openRun_of_ne (s : Sitting σ) (act : Play σ Run) (h : name ≠ other) :
    (s.openRun other act).2.run? name = s.run? name := by
  unfold openRun play
  rcases act.on s.table with ⟨_ | run, t'⟩
  · rfl
  · exact (run?_put _ _ _ _).trans (if_neg h)

theorem run?_withRun_of_ne (s : Sitting σ) (act : PacedRun → Play σ (α × PacedRun))
    (reply : α → Reply) (h : name ≠ other) :
    (s.withRun other act reply).2.run? name = s.run? name := by
  cases hp : s.run? other with
  | none => rw [withRun_of_none hp]
  | some p =>
    rcases hon : (act p).on s.table with ⟨f | ⟨a, p'⟩, t'⟩
    · rw [withRun_of_error hp hon]
      exact (run?_put _ _ _ _).trans (if_neg h)
    · rw [withRun_of_ok hp hon]
      exact (run?_put _ _ _ _).trans (if_neg h)

/-- **An operation leaves all runs alone** but the one that it is about. -/
theorem run?_perform_of_ne (tell : Listener σ) (s : Sitting σ) (h : o.run? ≠ some name) :
    (s.perform tell o).2.run? name = s.run? name := by
  have hne {other : String} (h : some other ≠ some name) : name ≠ other :=
    fun heq => h (heq ▸ rfl)
  cases o with
  | openBatch other source => exact run?_openRun_of_ne s _ (hne h)
  | openLive other source => exact run?_openRun_of_ne s _ (hne h)
  | next other => exact run?_withRun_of_ne s _ _ (hne h)
  | drain other => exact run?_withRun_of_ne s _ _ (hne h)
  | close other => exact run?_withRun_of_ne s _ _ (hne h)
  | slow other seconds => exact run?_withRun_of_ne s _ _ (hne h)
  | step a => exact run?_only s _ _ name
  | cancel => exact run?_only s _ _ name
  | reset => exact run?_only s _ _ name
  | setDifficulty preset => exact run?_only s _ _ name
  | solution => exact run?_only s _ _ name

end Sitting

/-! ### Mazes that are started over -/

/-- A listener that never calls back does less. -/
theorem Listener.Passive.mayFail {σ : Type} {tell : Listener σ} (h : tell.Passive) :
    tell.MayFail where
  untaken n t := by
    obtain ⟨audience, hon⟩ := h n t
    rw [hon]
    exact refl_of Game.Untaken t.game
  pause x := h (.pause x)

namespace Play

open Game

variable {σ α : Type} {tell : Listener σ} {t : Table σ} {g g' : Game}

/-- **The game was started anew**: it has a later number, and no run owns it. -/
structure Anew (g g' : Game) : Prop where
  number : g.runId < g'.runId
  idle : g'.running = false

theorem Anew.untaken {g'' : Game} (h : Anew g g') (hg : g'.Untaken g'') : Anew g g'' where
  number := Nat.lt_of_lt_of_le h.number hg.number
  idle := eq_false_of_ne_true fun hrun => by cases (hg.owner hrun).1.symm.trans h.idle

theorem Writes.comes_anew {act : Play σ α} (h : Writes tell Untaken act) (htell : tell.MayFail)
    (hg : Anew g t.game) : Comes act t (fun _ => Anew g) fun _ => True :=
  (h.comes htell (refl_of Untaken t.game)).mono (fun _ _ h' => hg.untaken h') fun _ _ => trivial

/-- **A game whose maze was started over is as good as lost** for all runs. -/
theorem comes_reset (htell : tell.MayFail) (hg : g.Untaken t.game) :
    Comes (reset tell) t (fun _ => Anew g) fun _ => True := by
  unfold reset
  refine (((Writes.notice _).comes htell hg).mono (fun _ _ h => h) fun _ _ => trivial).bind
    fun _ t₁ h₁ => .modifyGame ?_
  have hanew : Anew g t₁.game.restarted := ⟨Nat.lt_succ_of_le h₁.number, rfl⟩
  exact (Writes.drawAll.bind fun _ => Writes.game.bind fun _ =>
    Writes.report untaken_status _ _).comes_anew htell (t := { t₁ with game := t₁.game.restarted })
    hanew

theorem comes_setDifficulty (htell : tell.MayFail) (name : String) (t : Table σ) :
    Comes (setDifficulty tell name) t (fun _ => Anew t.game) fun _ => True := by
  unfold setDifficulty
  split
  · exact .of_error rfl trivial
  · rename_i m _
    refine .modifyGame (Comes.bind (P := fun _ => Anew t.game) ?_ fun _ _ h =>
      (Writes.notice _).comes_anew htell h)
    exact comes_reset htell (.of_eq rfl rfl id)

end Play

/-! ### Dismissed runs -/

namespace Sitting

variable {σ : Type} {tell : Listener σ} {s : Sitting σ} {name : String} {p : PacedRun}
  {dead : Nat → Prop} {o : Operation}

/-- **The run has been begun, and its number, if it has one, is past.** -/
def Dismissed (s : Sitting σ) (name : String) : Prop :=
  ∃ p, s.run? name = some p ∧ p.run.Started ∧ ∀ i, p.run.Carries i → i < s.table.game.runId

/-- **The run is mute**: it gives no step when it is asked for one, or for all it has left, or
is given up, and leaves the game as it is. -/
structure Mute (tell : Listener σ) (s : Sitting σ) (name : String) : Prop where
  next : (s.perform tell (.next name)).1 = .ok (.next none)
  drain : (s.perform tell (.drain name)).1 = .ok (.reports [])
  close : (s.perform tell (.close name)).1 = .ok .done
  game : ∀ o ∈ [Operation.next name, .drain name, .close name],
    (s.perform tell o).2.table.game = s.table.game

/-- The run is mute from now on, whatever is done, as long as no other takes its name. -/
def SilentFrom (tell : Listener σ) (s : Sitting σ) (name : String) : Prop :=
  ∀ later : List Operation, (∀ o ∈ later, o.opens? ≠ some name) →
    Mute tell (s.performAll tell later).2 name

namespace Dismissed

theorem of_ended {t : Table σ} (s : Sitting σ) (name : String) :
    Dismissed (({ s with table := t } : Sitting σ).put name .ended) name :=
  ⟨.ended, (run?_put _ _ _ _).trans (if_pos rfl), trivial,
    fun i hi => absurd hi (Run.not_carries_ended i)⟩

/-- **What becomes of a dismissed run**, and of the table, when it is asked for a step: but for
the waits that it owed, nothing happens. -/
theorem exists_nextPaced (htell : tell.MayFail) {t : Table σ} (hrun : p.run.Started)
    (hold : ∀ i, p.run.Carries i → i < t.game.runId) :
    ∃ audience, (Play.nextPaced tell p).on t = (.ok (none, .ended), { t with audience }) := by
  obtain ⟨audience, hon⟩ := Play.on_waits htell p.paces t
  have hnext : (Play.next tell p.run).on { t with audience } =
      (.ok (none, .ended), { t with audience }) :=
    Play.on_next_of_lost hrun fun hi => Nat.lt_irrefl _ (hold _ hi)
  exact ⟨audience, Play.on_nextPaced hon hnext⟩

theorem exists_next (h : s.Dismissed name) (htell : tell.MayFail) :
    ∃ audience, s.perform tell (.next name) = (.ok (.next none),
      ({ s with table := { s.table with audience } } : Sitting σ).put name .ended) := by
  obtain ⟨p, hp, hrun, hold⟩ := h
  obtain ⟨audience, hon⟩ := exists_nextPaced htell hrun hold
  exact ⟨audience, withRun_of_ok hp hon⟩

theorem exists_drain (h : s.Dismissed name) (htell : tell.MayFail) :
    ∃ audience, s.perform tell (.drain name) = (.ok (.reports []),
      ({ s with table := { s.table with audience } } : Sitting σ).put name .ended) := by
  obtain ⟨p, hp, hrun, hold⟩ := h
  obtain ⟨audience, hon⟩ := exists_nextPaced htell hrun hold
  refine ⟨audience, withRun_of_ok hp ?_⟩
  rw [Play.on_bind, Play.on_drain_of_none hon]
  rfl

theorem close (h : s.Dismissed name) (tell : Listener σ) :
    s.perform tell (.close name) = (.ok .done, s.put name .ended) := by
  obtain ⟨p, hp, hrun, hold⟩ := h
  refine withRun_of_ok (a := ()) hp ?_
  rw [Play.on_bind, Play.on_close_of_lost fun hi => Nat.lt_irrefl _ (hold _ hi)]
  rfl

theorem mute (h : s.Dismissed name) (htell : tell.MayFail) : Mute tell s name := by
  obtain ⟨_, hnext⟩ := h.exists_next htell
  obtain ⟨_, hdrain⟩ := h.exists_drain htell
  have hclose := h.close tell
  refine ⟨by rw [hnext], by rw [hdrain], by rw [hclose], fun o ho => ?_⟩
  simp only [List.mem_cons, List.not_mem_nil, or_false] at ho
  rcases ho with rfl | rfl | rfl
  · rw [hnext]
    rfl
  · rw [hdrain]
    rfl
  · rw [hclose]
    rfl

/-- **A dismissed run stays dismissed** under every operation that opens no run under its
name. -/
theorem perform (h : s.Dismissed name) (hs : s.Accounted dead) (htell : tell.MayFail)
    (ho : o.opens? ≠ some name) : (s.perform tell o).2.Dismissed name := by
  by_cases hrun : o.run? = some name
  · cases o with
    | next other =>
      cases hrun
      obtain ⟨_, hnext⟩ := h.exists_next htell
      rw [hnext]
      exact of_ended s name
    | drain other =>
      cases hrun
      obtain ⟨_, hdrain⟩ := h.exists_drain htell
      rw [hdrain]
      exact of_ended s name
    | close other =>
      cases hrun
      rw [h.close tell]
      exact of_ended s name
    | slow other seconds =>
      cases hrun
      obtain ⟨p, hp, hstarted, hold⟩ := h
      have hslow : s.perform tell (.slow name seconds) =
          (.ok .done, s.put name (p.slowed seconds)) := by
        unfold perform
        exact withRun_of_ok (a := ()) hp rfl
      rw [hslow]
      exact ⟨_, (run?_put _ _ _ _).trans (if_pos rfl), hstarted, hold⟩
    | openBatch other source => exact absurd hrun ho
    | openLive other source => exact absurd hrun ho
    | step a => cases hrun
    | cancel => cases hrun
    | reset => cases hrun
    | setDifficulty preset => cases hrun
    | solution => cases hrun
  · obtain ⟨p, hp, hstarted, hold⟩ := h
    have hle := (hs.perform htell o).number
    exact ⟨p, (run?_perform_of_ne tell s hrun).trans hp, hstarted,
      fun i hi => Nat.lt_of_lt_of_le (hold i hi) hle⟩

/-- **It is mute from then on.** -/
theorem silentFrom (h : s.Dismissed name) (hs : s.Accounted dead) (htell : tell.MayFail) :
    SilentFrom tell s name := by
  intro later hlater
  induction later generalizing s dead with
  | nil => exact h.mute htell
  | cons o later ih =>
    obtain ⟨ho, hlater⟩ := List.forall_mem_cons.mp hlater
    exact ih (h.perform hs htell ho) (hs.perform htell o).accounted hlater

end Dismissed

/-! ### Runs that were not begun -/

/-- **The run takes the game with its first step**: the game is in another phase, and if the
run asks for a move, the move is made and reported. -/
structure TakesGame (tell : Listener σ) (s : Sitting σ) (name : String) (run : Run) : Prop where
  phase : (s.perform tell (.next name)).2.table.game.phase ≠ s.table.game.phase
  moves : run.asks s.table.game.rules.limits ≠ [] →
    (∃ res, (s.perform tell (.next name)).1 = .ok (.next (some res))) ∧
      (s.perform tell (.next name)).2.table.game.steps = s.table.game.steps + 1

theorem takesGame_of_atOpening (htell : tell.Passive) (hopening : s.table.game.AtOpening)
    (hp : s.run? name = some p) (hrun : ¬p.run.Started)
    (hwait : ∀ q ∈ p.paces, q.owed = false) : TakesGame tell s name p.run := by
  have hfin : s.table.game.world.finished = false := by
    rw [hopening.world]
    rfl
  obtain ⟨⟨res?, run'⟩, t', hon, -, hstep⟩ := Play.step_begun htell.staysWithin trivial
    hopening.not_running hfin hrun
  have hpaced := Play.on_nextPaced (Play.on_forM_await hwait) hon
  have hnext : s.perform tell (.next name) =
      (.ok (.next res?), ({ s with table := t' } : Sitting σ).put name _) :=
    withRun_of_ok hp hpaced
  have htable : (s.perform tell (.next name)).2.table = t' := by
    rw [hnext]
    rfl
  refine ⟨?_, fun hasks => ?_⟩
  · rw [htable, hopening.phase]
    exact hstep.phase_ne_idle rfl
  · obtain ⟨⟨res, hres⟩, hsteps⟩ := hstep.exists_report hasks
    rw [htable, hnext]
    exact ⟨⟨res, by rw [← hres]⟩, hsteps⟩

/-! ### What becomes of runs when the maze is started over -/

/-- An operation that concerns no run has been done. -/
theorem exists_of_only {α : Type} {act : Play σ α} {reply : α → Reply} {r : Reply}
    {s₁ : Sitting σ} (h : s.only act reply = (.ok r, s₁)) :
    ∃ a t', act.on s.table = (.ok a, t') ∧ s₁ = { s with table := t' } := by
  unfold only play at h
  rcases hon : act.on s.table with ⟨f | a, t'⟩
  · rw [hon] at h
    cases h
  · rw [hon] at h
    cases h
    exact ⟨a, t', rfl, rfl⟩

/-- **The maze has been started over**, be it the same maze or another. -/
theorem anew_of_perform {s₁ : Sitting σ} {r : Reply} (htell : tell.MayFail)
    (ho : o = .reset ∨ ∃ preset, o = .setDifficulty preset)
    (hdone : s.perform tell o = (.ok r, s₁)) :
    s₁.runs = s.runs ∧ Play.Anew s.table.game s₁.table.game := by
  rcases ho with rfl | ⟨preset, rfl⟩
  · obtain ⟨_, t', hon, rfl⟩ := exists_of_only hdone
    have hreset := Play.comes_reset (t := s.table) htell (refl_of Game.Untaken _)
    unfold Play.Comes at hreset
    rw [hon] at hreset
    exact ⟨rfl, hreset⟩
  · obtain ⟨_, t', hon, rfl⟩ := exists_of_only hdone
    have hset := Play.comes_setDifficulty htell preset s.table
    unfold Play.Comes at hset
    rw [hon] at hset
    exact ⟨rfl, hset⟩

/-- If those who listen keep quiet, the maze is then as at its opening. -/
theorem atOpening_of_perform {s₁ : Sitting σ} {r : Reply} (htell : tell.Passive)
    (ho : o = .reset ∨ ∃ preset, o = .setDifficulty preset)
    (hdone : s.perform tell o = (.ok r, s₁)) : s₁.table.game.AtOpening := by
  rcases ho with rfl | ⟨preset, rfl⟩
  · obtain ⟨_, t', hon, rfl⟩ := exists_of_only hdone
    obtain ⟨_, t'', hon', st, hst⟩ := Play.succeeds_reset htell s.table
    cases hon.symm.trans hon'
    exact (Game.Disturbed.kept st hst).atOpening (Game.atOpening_restarted _)
  · obtain ⟨_, t', hon, rfl⟩ := exists_of_only hdone
    cases hm : Maze.named preset with
    | error f => cases hon.symm.trans (Play.on_setDifficulty_of_error s.table hm)
    | ok m =>
      obtain ⟨_, t'', hon', st, hst⟩ := Play.succeeds_setDifficulty htell s.table hm
      cases hon.symm.trans hon'
      exact (Game.Disturbed.kept st hst).atOpening (Game.atOpening_restarted _)

/-- **Once the maze has been started over, a run that was begun before is silent from then
on**, whatever is done and wherever the listener fails. A run that was opened before and not
begun is not: if the listener keeps quiet, it takes the game with its first step. -/
theorem silentFrom_of_started_and_takesGame (htell : tell.MayFail) (rules : Rules)
    (maze : Maze) (audience : σ) (os : List Operation) {s₁ : Sitting σ}
    (hs : s = (performAll tell ⟨(Game.new tell rules maze audience).2, []⟩ os).2)
    (hp : s.run? name = some p) (ho : o = .reset ∨ ∃ preset, o = .setDifficulty preset)
    (hdone : s.perform tell o = (.ok .done, s₁)) :
    (p.run.Started → SilentFrom tell s₁ name) ∧
      (tell.Passive → ¬p.run.Started → TakesGame tell s₁ name p.run) := by
  have hknown := (accounted_new htell rules maze audience).performAll htell os
  rw [← hs] at hknown
  have hknown₁ := (hknown.perform htell o).accounted
  rw [hdone] at hknown₁
  obtain ⟨hruns, hanew⟩ := anew_of_perform htell ho hdone
  have hp₁ : s₁.run? name = some p := by
    unfold run?
    rw [hruns]
    exact hp
  refine ⟨fun hrun => ?_, fun hpassive hrun => ?_⟩
  · have hdismissed : s₁.Dismissed name :=
      ⟨p, hp₁, hrun, fun i hi => Nat.lt_of_le_of_lt (hknown.le name i ⟨p, hp, hi⟩) hanew.number⟩
    exact hdismissed.silentFrom hknown₁ htell
  · exact takesGame_of_atOpening hpassive (atOpening_of_perform hpassive ho hdone) hp₁ hrun
      (hknown.unowed name p hp hrun)

/-- A sitting in which one run is begun, and another only opened. -/
def halfBegun : Sitting Unit :=
  (performAll Listener.silent ⟨(Game.new Listener.silent {} Preset.easy.maze ()).2, []⟩
    [.openBatch "begun" "moveRight(); moveRight();", .openBatch "unbegun" "moveRight();",
      .next "begun"]).2

theorem run_halfBegun :
    (halfBegun.run? "begun").map (·.run) =
        some (.suspended { mode := .batch, runId := 2, index := 1, moves := [.right] }) ∧
      (halfBegun.run? "unbegun").map (·.run) = some (.batch [.right]) := by
  decide +kernel

theorem reset_halfBegun : (halfBegun.perform Listener.silent .reset).1 = .ok .done := by
  decide +kernel

/-- **A run that was opened before the maze was started over may make a move afterwards.** -/
theorem not_forall_silentFrom :
    ¬∀ (os : List Operation) (s s₁ : Sitting Unit) (name : String) (p : PacedRun),
      s = (performAll Listener.silent
        ⟨(Game.new Listener.silent {} Preset.easy.maze ()).2, []⟩ os).2 →
      s.run? name = some p → s.perform Listener.silent .reset = (.ok .done, s₁) →
      SilentFrom Listener.silent s₁ name := by
  intro h
  obtain ⟨p, hp, -⟩ := Option.map_eq_some_iff.mp run_halfBegun.2
  have hsilent := h _ halfBegun _ "unbegun" p rfl hp (Prod.ext reset_halfBegun rfl) [] (by simp)
  have hgame := hsilent.game (.next "unbegun") (by simp)
  revert hgame
  decide +kernel

/-- The one that was begun is silent, and the other makes its move. -/
theorem silentFrom_of_started_and_takesGame_halfBegun :
    (Listener.silent : Listener Unit).MayFail ∧ (Listener.silent : Listener Unit).Passive ∧
      SilentFrom Listener.silent (halfBegun.perform Listener.silent .reset).2 "begun" ∧
      TakesGame Listener.silent (halfBegun.perform Listener.silent .reset).2 "unbegun"
        (.batch [.right]) := by
  obtain ⟨p, hp, hrun⟩ := Option.map_eq_some_iff.mp run_halfBegun.1
  obtain ⟨p', hp', hrun'⟩ := Option.map_eq_some_iff.mp run_halfBegun.2
  have hdone : halfBegun.perform Listener.silent .reset =
      (.ok .done, (halfBegun.perform Listener.silent .reset).2) :=
    Prod.ext reset_halfBegun rfl
  have htell : (Listener.silent : Listener Unit).MayFail :=
    Listener.passive_silent.mayFail
  refine ⟨htell, Listener.passive_silent, ?_, ?_⟩
  · refine (silentFrom_of_started_and_takesGame htell {} Preset.easy.maze () _ rfl hp (.inl rfl)
      hdone).1 ?_
    rw [hrun]
    trivial
  · rw [← hrun']
    refine (silentFrom_of_started_and_takesGame htell {} Preset.easy.maze () _ rfl hp' (.inl rfl)
      hdone).2 Listener.passive_silent ?_
    rw [hrun']
    exact id

end Sitting

end ScriptedMaze
