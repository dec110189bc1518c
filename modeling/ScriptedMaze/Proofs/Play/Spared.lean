import ScriptedMaze.Proofs.Play.Renewed

/-!
# What operations spare that fail

An operation can fail in four ways while those who listen keep quiet: a run owns the game
already, there is no such maze, there is no such run, or a script is rejected. The first three
are found out before anything is written or told, and so the whole table is as it was. Where a
script is rejected the player is told why, and nothing but the status is written
(`Sitting.Failed`).

In either case the runs are left as they were, but for one that was asked for a step and
refused it. There may be one among them that is suspended, and one that was asked to stop and
has not come to know of it. What these do later depends on the game, on its number above all,
and since all of that is as it was they do the same as if nothing had been asked for
(`Sitting.unchanged_of_error`). This holds of everything that is asked for afterwards, but for
steps of the run that was refused; the status alone may be another, as long as the player is
told nothing (`Sitting.GoesAlike`).
-/

namespace ScriptedMaze

/-- The name of the run that is asked for steps. -/
def Operation.asks? : Operation → Option String
  | next name | drain name => some name
  | _ => none

/-! ### Alike from then on -/

theorem Game.likened_zero (g : Game) (st : Status) : g.likened 0 st = { g with status := st } := by
  unfold likened renumbered
  rw [Nat.zero_add]

theorem Replay.renumbered_zero (r : Replay) : r.renumbered 0 = r := by
  unfold renumbered
  rw [Nat.zero_add]

/-- A run keeps its number. -/
theorem PacedRun.renumbered_zero (p : PacedRun) : p.renumbered 0 = p := by
  obtain ⟨run, paces⟩ := p
  cases run with
  | suspended r => exact congrArg (fun r => (⟨.suspended r, paces⟩ : PacedRun)) r.renumbered_zero
  | _ => rfl

namespace Listener

variable {σ : Type} {tell : Listener σ}

/-- **A listener that writes down what it hears**, and looks at nothing else. -/
def WritesDown (tell : Listener σ) (hear : σ → Notice → σ) : Prop :=
  ∀ n, tell n = Play.modifyAudience (hear · n)

/-- Two tables that were alike but for the status. If the statuses are not the same, they are
those of the beginning, and whoever writes down what it hears has heard the same since. -/
def since (tell : Listener σ) (t t' : Table σ) : Likeness σ where
  shift := 0
  status st st' := st' = st ∨ st = t.game.status ∧ st' = t'.game.status
  audience a a' := ∀ hear, tell.WritesDown hear →
    ∃ ns : List Notice, a = ns.foldl hear t.audience ∧ a' = ns.foldl hear t'.audience
  status_refl _ := .inl rfl

theorem alike_since {t t' : Table σ} (h : t'.game = { t.game with status := t'.game.status }) :
    (tell.since t t').Alike t t' := by
  have halike : (tell.since t t').Alike t
      ⟨t.game.likened (tell.since t t').shift t'.game.status, t'.audience⟩ :=
    .intro (L := tell.since t t') (.inr ⟨rfl, rfl⟩) fun _ _ => ⟨[], rfl, rfl⟩
  have hsame : t.game.likened (tell.since t t').shift t'.game.status = t'.game :=
    (Game.likened_zero _ _).trans h.symm
  rwa [hsame] at halike

/-- **One more notice leaves them so.** -/
theorem Passive.heeded_since (htell : tell.Passive) (t t' : Table σ) :
    (tell.since t t').Heeded tell := by
  rintro n _ _ (@⟨g, st, a, a', hstatus, haudience⟩)
  obtain ⟨b, hon⟩ := htell n ⟨g, a⟩
  obtain ⟨b', hon'⟩ := htell n ⟨g.likened (tell.since t t').shift st, a'⟩
  rw [hon, hon']
  refine ⟨rfl, .intro hstatus fun hear hhear => ?_⟩
  obtain ⟨ns, rfl, rfl⟩ := haudience hear hhear
  rw [hhear n, Play.on_modifyAudience] at hon hon'
  cases hon
  cases hon'
  exact ⟨ns ++ [n], by rw [List.foldl_concat], by rw [List.foldl_concat]⟩

end Listener

/-! ### Operations that fail -/

namespace Sitting

open Play

variable {σ α : Type} {tell : Listener σ} {s s' : Sitting σ} {o : Operation} {name : String}
  {f : SittingFault} {fit : σ → Prop}

/-- **What an operation leaves that failed.** -/
inductive Failed (s : Sitting σ) (o : Operation) : SittingFault → Sitting σ → Prop
  /-- It was refused, and nothing was done; a run that refused a step is over. -/
  | refused {f : SittingFault} {s' : Sitting σ} (hf : ∀ e, f ≠ .game (.script e))
      (table : s'.table = s.table)
      (runs : ∀ name, o.asks? ≠ some name → s'.run? name = s.run? name) : Failed s o f s'
  /-- A script was rejected, and the player was told why. -/
  | rejected (e : Script.Fault) (audience : σ) (ho : o.asks? = none) :
      Failed s o (.game (.script e)) { s with
        table := ⟨{ s.table.game with status := ⟨"Code error: " ++ e.message, .error⟩ }, audience⟩ }

/-- What concerns no run is refused, or it does not fail. -/
theorem failed_only {act : Play σ α} {reply : α → Reply}
    (hact : (∃ Q, Succeeds act s.table Q) ∨
      ∃ e, (∀ x, e ≠ .script x) ∧ act.on s.table = (.error e, s.table))
    (hf : (s.only act reply).1 = .error f) : s.Failed o f (s.only act reply).2 := by
  rcases hact with ⟨Q, _, _, hon, -⟩ | ⟨e, he, hon⟩
  · rw [only_of_ok hon] at hf
    cases hf
  · rw [only_of_error hon] at hf ⊢
    cases hf
    exact .refused (fun x hx => he x (SittingFault.game.inj hx)) rfl fun _ _ => rfl

/-- Opening a run is refused, or its script is rejected, or it does not fail. -/
theorem failed_openRun {act : Play σ Run} (ho : o.asks? = none)
    (hact : (∃ Q, Succeeds act s.table Q) ∨ act.on s.table = (.error .busy, s.table) ∨
      ∃ (e : Script.Fault) (audience : σ), act.on s.table = (.error (.script e),
        ⟨{ s.table.game with status := ⟨"Code error: " ++ e.message, .error⟩ }, audience⟩))
    (hf : (s.openRun name act).1 = .error f) : s.Failed o f (s.openRun name act).2 := by
  unfold openRun play at hf ⊢
  rcases hact with ⟨Q, _, _, hon, -⟩ | hon | ⟨e, audience, hon⟩
  · rw [hon] at hf
    cases hf
  · rw [hon] at hf ⊢
    cases hf
    exact .refused nofun rfl fun _ _ => rfl
  · rw [hon] at hf ⊢
    cases hf
    exact .rejected e audience ho

/-- A run is refused a step, or what is asked of it does not fail; nothing is asked of a run that
there is not. -/
theorem failed_withRun {act : PacedRun → Play σ (α × PacedRun)} {reply : α → Reply}
    (hact : ∀ p, s.run? name = some p → (∃ Q, Succeeds (act p) s.table Q) ∨
      o.asks? = some name ∧ (act p).on s.table = (.error .busy, s.table))
    (hf : (s.withRun name act reply).1 = .error f) :
    s.Failed o f (s.withRun name act reply).2 := by
  cases hp : s.run? name with
  | none =>
    rw [withRun_of_none hp] at hf ⊢
    cases hf
    exact .refused nofun rfl fun _ _ => rfl
  | some p =>
    rcases hact p hp with ⟨Q, _, _, hon, -⟩ | ⟨ho, hon⟩
    · rw [withRun_of_ok hp hon] at hf
      cases hf
    · rw [withRun_of_error hp hon] at hf ⊢
      cases hf
      refine .refused nofun rfl fun other hother => ?_
      exact (run?_put _ _ _ _).trans (if_neg fun heq => hother (by rw [ho, heq]))

/-- **An operation that fails is refused, or a script is rejected.** -/
theorem failed_of_error (h : s.InOrder fit) (htell : tell.Passive)
    (hf : (s.perform tell o).1 = .error f) : s.Failed o f (s.perform tell o).2 := by
  cases o with
  | openBatch name source =>
    refine failed_openRun rfl ?_ hf
    cases hidle : s.table.game.running with
    | true => exact .inr (.inl (on_openBatch_of_running source hidle))
    | false =>
      cases hds : Script.commands s.table.game.rules.limits source with
      | error e => exact .inr (.inr ⟨e, exists_on_openBatch_of_rejected htell hidle hds⟩)
      | ok ds => exact .inl ⟨_, succeeds_openBatch htell hidle hds⟩
  | openLive name source =>
    refine failed_openRun rfl ?_ hf
    cases hidle : s.table.game.running with
    | true => exact .inr (.inl (on_openLive_of_running source hidle))
    | false =>
      cases hblank : Text.blank source with
      | true => exact .inr (.inr ⟨.emptyProgram, exists_on_openLive_of_rejected htell hidle hblank⟩)
      | false => exact .inl ⟨fun _ _ => True, .of_on (on_openLive hidle hblank) trivial⟩
  | next name =>
    refine failed_withRun (fun p hp => ?_) hf
    rcases started_or_idle p s.table.game with hmay | ⟨hrun, hbusy⟩
    · exact .inl ⟨_, gone_nextPaced htell h.settled (h.fits name p hp) hmay⟩
    · exact .inr ⟨rfl, on_nextPaced_of_busy hrun (h.unowed name p hp hrun) hbusy⟩
  | drain name =>
    refine failed_withRun (fun p hp => ?_) hf
    rcases started_or_idle p s.table.game with hmay | ⟨hrun, hbusy⟩
    · refine .inl ⟨fun _ _ => True, ?_⟩
      exact (gone_drain htell h.settled (h.fits name p hp) hmay).bind fun _ _ _ => .pure trivial
    · rw [on_bind, on_drain_of_busy hrun (h.unowed name p hp hrun) hbusy]
      exact .inr ⟨rfl, rfl⟩
  | close name =>
    refine failed_withRun (fun p _ => .inl ⟨fun _ _ => True, ?_⟩) hf
    exact (course_close p.run s.table).bind fun _ _ _ => .pure trivial
  | slow name seconds =>
    exact failed_withRun (fun _ _ => .inl ⟨fun _ _ => True, .pure trivial⟩) hf
  | step a =>
    refine failed_only ?_ hf
    cases hidle : s.table.game.running with
    | true => exact .inr ⟨.busy, nofun, on_step_of_running a hidle⟩
    | false =>
      refine .inl ⟨fun _ _ => True, .of_eq (on_step a hidle) ?_⟩
      rcases perform_cases htell hidle a with ⟨_, -, _, hon⟩ | hok
      · exact .of_on hon trivial
      · exact hok.mono fun _ _ _ => trivial
  | cancel => cases hf
  | reset => exact failed_only (.inl ⟨_, succeeds_reset htell s.table⟩) hf
  | setDifficulty preset =>
    refine failed_only ?_ hf
    cases hm : Maze.named preset with
    | ok m => exact .inl ⟨_, succeeds_setDifficulty htell s.table hm⟩
    | error e => exact .inr ⟨.maze e, nofun, on_setDifficulty_of_error s.table hm⟩
  | solution =>
    refine failed_only (.inl ⟨fun _ _ => True, ?_⟩) hf
    cases hroute : s.table.game.world.route? with
    | none => exact .of_on (on_solution_of_none hroute) trivial
    | some way =>
      obtain ⟨_, hon⟩ := exists_on_solution htell hroute
      exact .of_on hon trivial

/-! ### What is spared -/

/-- **Operations come to the same in two sittings**: the replies are the same, the games are the
same but for the status, and whoever writes down what it hears, hears the same. The statuses are
the same, too, unless they are still those of the beginning. -/
structure GoesAlike (tell : Listener σ) (os : List Operation) (s s' : Sitting σ) : Prop where
  replies : (s'.performAll tell os).1 = (s.performAll tell os).1
  game : (s'.performAll tell os).2.table.game =
    { (s.performAll tell os).2.table.game with
      status := (s'.performAll tell os).2.table.game.status }
  status : (s'.performAll tell os).2.table.game.status =
      (s.performAll tell os).2.table.game.status ∨
    (s.performAll tell os).2.table.game.status = s.table.game.status ∧
      (s'.performAll tell os).2.table.game.status = s'.table.game.status
  notices : ∀ hear, tell.WritesDown hear → ∃ ns : List Notice,
    (s.performAll tell os).2.table.audience = ns.foldl hear s.table.audience ∧
      (s'.performAll tell os).2.table.audience = ns.foldl hear s'.table.audience

/-- Sittings that are alike but for the status go alike. -/
theorem Likened.goesAlike {known : String → Prop} (htell : tell.Passive)
    (h : Likened (tell.since s.table s'.table) known s s') (os : List Operation)
    (hos : ∀ o ∈ os, ∀ name, o.run? = some name → known name) : GoesAlike tell os s s' := by
  obtain ⟨hreplies, hafter⟩ := h.performAll (htell.heeded_since _ _) os hos
  have halike := hafter.table
  generalize htable : (s.performAll tell os).2.table = t at halike
  generalize htable' : (s'.performAll tell os).2.table = t' at halike
  obtain ⟨hstatus, haudience⟩ := halike
  constructor
  · exact hreplies
  · rw [htable, htable']
    exact Game.likened_zero _ _
  · rw [htable, htable']
    exact hstatus
  · rw [htable, htable']
    exact haudience

namespace Failed

/-- What a failed operation leaves is like what there was. -/
theorem likened (h : s.Failed o f s') :
    Likened (tell.since s.table s'.table) (fun name => o.asks? ≠ some name) s s' := by
  have hkept (p? : Option PacedRun) : p?.map (PacedRun.renumbered 0) = p? := by
    cases p? with
    | none => rfl
    | some p => exact congrArg some p.renumbered_zero
  cases h with
  | refused hf table runs =>
    exact ⟨Listener.alike_since (by rw [table]), fun name hname =>
      (runs name hname).trans (hkept _).symm⟩
  | rejected e audience ho => exact ⟨Listener.alike_since rfl, fun name _ => (hkept _).symm⟩

/-- The other runs are left as they were. -/
theorem run?_eq (h : s.Failed o f s') (hname : o.asks? ≠ some name) :
    s'.run? name = s.run? name := by
  cases h with
  | refused hf table runs => exact runs name hname
  | rejected e audience ho => rfl

end Failed

/-- **An operation that fails changes nothing but the status.** Let it fail in a sitting that was
come to by any operations, with a listener that never calls back. If no script was rejected, the
table is as it was. If a script was rejected, the game has the error as its status, and is as it
was otherwise. All runs are as they were but for one that was asked for a step; and whatever is
done afterwards with the others comes to the same as if the operation had not been asked for. -/
theorem unchanged_of_error (htell : tell.Passive) (rules : Rules) (maze : Maze) (audience : σ)
    (os : List Operation)
    (hs : s = (performAll tell ⟨(Game.new tell rules maze audience).2, []⟩ os).2)
    (hf : (s.perform tell o).1 = .error f) :
    ((∀ e, f ≠ .game (.script e)) → (s.perform tell o).2.table = s.table) ∧
      (∀ e, f = .game (.script e) → (s.perform tell o).2.table.game =
        { s.table.game with status := ⟨"Code error: " ++ e.message, .error⟩ }) ∧
      (∀ name, o.asks? ≠ some name → (s.perform tell o).2.run? name = s.run? name) ∧
      ∀ later : List Operation, (∀ o' ∈ later, ∀ name, o'.run? = some name →
        o.asks? ≠ some name) → GoesAlike tell later s (s.perform tell o).2 := by
  have horder : s.InOrder fun _ => True := hs ▸ inOrder_of_passive htell rules maze audience os
  have hfailed := failed_of_error horder htell hf
  refine ⟨fun hno => ?_, fun e he => ?_, fun name => hfailed.run?_eq,
    fun later => hfailed.likened.goesAlike htell later⟩
  · generalize (s.perform tell o).2 = s' at hfailed
    cases hfailed with
    | refused hf table runs => exact table
    | rejected e audience ho => exact absurd rfl (hno e)
  · generalize (s.perform tell o).2 = s' at hfailed
    cases hfailed with
    | refused hf table runs => exact absurd he (hf e)
    | rejected e' audience ho =>
      cases he
      rfl

/-- A sitting in which one run is under way and another one was opened. -/
def underWay : Sitting (List Notice) :=
  (performAll Listener.recorder ⟨(Game.new Listener.recorder {} Preset.easy.maze []).2, []⟩
    [.openBatch "first" "moveRight(); moveRight();", .openLive "second" "moveLeft();",
      .next "first"]).2

/-- The same, where the run that is under way was asked to stop and does not know of it yet. -/
def calledOff : Sitting (List Notice) :=
  (performAll Listener.recorder ⟨(Game.new Listener.recorder {} Preset.easy.maze []).2, []⟩
    [.openBatch "first" "moveRight(); moveRight();", .openLive "second" "moveLeft();",
      .next "first", .cancel]).2

/-- The second run is refused its first step while the first is under way; and after the first
was asked to stop, a third is not opened. -/
theorem unchanged_of_error_underWay :
    Listener.recorder.Passive ∧
      (underWay.perform Listener.recorder (.next "second")).1 = .error (.game .busy) ∧
      (underWay.perform Listener.recorder (.next "second")).2.table = underWay.table ∧
      GoesAlike Listener.recorder [.next "first", .reset, .close "first"] underWay
        (underWay.perform Listener.recorder (.next "second")).2 ∧
      (calledOff.perform Listener.recorder (.openBatch "third" "while")).1 =
        .error (.game (.script (.forbidden "while" 1))) ∧
      (calledOff.perform Listener.recorder (.openBatch "third" "while")).2.table.game =
        { calledOff.table.game with
          status := ⟨"Code error: " ++ (Script.Fault.forbidden "while" 1).message, .error⟩ } ∧
      GoesAlike Listener.recorder [.next "first", .drain "second"] calledOff
        (calledOff.perform Listener.recorder (.openBatch "third" "while")).2 := by
  have hbusy : (underWay.perform Listener.recorder (.next "second")).1 = .error (.game .busy) := by
    decide +kernel
  have hrejected : (calledOff.perform Listener.recorder (.openBatch "third" "while")).1 =
      .error (.game (.script (.forbidden "while" 1))) := by
    decide +kernel
  obtain ⟨htable, -, -, hlater⟩ := unchanged_of_error Listener.passive_recorder {}
    Preset.easy.maze [] _ rfl hbusy
  obtain ⟨-, hgame, -, hlater'⟩ := unchanged_of_error Listener.passive_recorder {}
    Preset.easy.maze [] _ rfl hrejected
  exact ⟨Listener.passive_recorder, hbusy, htable nofun, hlater _ (by decide), hrejected,
    hgame _ rfl, hlater' _ (by decide)⟩

end Sitting

end ScriptedMaze
