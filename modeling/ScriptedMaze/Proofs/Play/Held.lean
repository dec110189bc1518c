import ScriptedMaze.Proofs.Play.Failing
import ScriptedMaze.Proofs.Play.Ownership

/-!
# Runs that hold the game

Where a run is under way, it does not keep the game when it ends, however it ends. But the
first step of a run takes the game some notices earlier than the run's care begins
(`Play.opening`). If one of these notices fails, the run has ended and the game is taken for
good (`Play.FailsToOpen`).

There is no other way for it. At any time it is accounted for who owns the game
(`Sitting.Accounted`): a run at the table carries its number, or else the number is that of
a run that failed while it was being opened. Every operation keeps this up, since a turn of a
run comes to no more than `Run.Continued` says. So whatever is asked for, and wherever
listeners fail, a game that is owned is owned by a run that is still there exactly if it was
not taken by a run that failed while it was being opened (`Sitting.carried_iff_of_running`).
-/

namespace ScriptedMaze

/-! ### Turns -/

namespace Run

/-- **What a turn of a run comes to that may have failed.** If some run owns the game, it is
this one, or one that is none of its business; or else this one took the game and `failed`
while it was being opened. -/
structure Continued (failed : Prop) (run : Run) (g : Game) (run' : Run) (g' : Game) : Prop where
  started : run'.Started
  number : g.runId ≤ g'.runId
  rules : g'.rules = g.rules
  carries : ∀ i, run'.Carries i → run.Carries i ∨ g.runId < i ∧ i ≤ g'.runId
  owner : g'.running = true → run'.Carries g'.runId ∨ failed ∧ g'.runId = g.runId + 1 ∨
    g.running = true ∧ g'.runId = g.runId ∧ ¬run.Carries g.runId
  failed : failed → g.runId < g'.runId ∧ ¬run'.Carries (g.runId + 1)

variable {run run' run'' : Run} {g g' g'' : Game} {failed : Prop} {r : Replay}

namespace Continued

/-- A run that has nothing to do with the game ends. -/
theorem of_untaken (hg : g.Untaken g') (hrun : ¬run.Carries g.runId) (hfailed : ¬failed) :
    run.Continued failed g .ended g' where
  started := trivial
  number := hg.number
  rules := hg.rules
  carries i hi := absurd hi (not_carries_ended i)
  owner h := .inr (.inr ⟨(hg.owner h).1, (hg.owner h).2, hrun⟩)
  failed h := absurd h hfailed

/-- A run that has a number goes on under it, or the game is free of it. -/
theorem of_suspended (hg : g.Untaken g')
    (hreleased : run'.Carries r.runId ∨ run' = .ended ∧ g'.FreeOf r.runId) (hfailed : ¬failed) :
    (suspended r).Continued failed g run' g' where
  started := by
    rcases hreleased with ⟨r', rfl, -⟩ | ⟨rfl, -⟩ <;> trivial
  number := hg.number
  rules := hg.rules
  carries i hi := by
    rcases hreleased with hi' | ⟨rfl, -⟩
    · rw [hi.eq hi']
      exact .inl (carries_suspended r)
    · exact absurd hi (not_carries_ended i)
  owner h := by
    obtain ⟨hrun, hsame⟩ := hg.owner h
    by_cases hid : g.runId = r.runId
    · rcases hreleased with hi | ⟨-, hfree⟩
      · exact .inl (by rwa [hsame, hid])
      · cases h.symm.trans (hfree (hsame.trans hid))
    · exact .inr (.inr ⟨hrun, hsame, fun hi => hid (hi.eq (carries_suspended r))⟩)
  failed h := absurd h hfailed

/-- A run that takes the game goes on under its number, or the game is free of it. -/
theorem of_taken (hg : g.taken.Untaken g')
    (hreleased : run'.Carries (g.runId + 1) ∨ run' = .ended ∧ g'.FreeOf (g.runId + 1))
    (hfailed : ¬failed) : run.Continued failed g run' g' where
  started := by
    rcases hreleased with ⟨r', rfl, -⟩ | ⟨rfl, -⟩ <;> trivial
  number := Nat.le_of_lt hg.number
  rules := hg.rules
  carries i hi := by
    rcases hreleased with hi' | ⟨rfl, -⟩
    · rw [hi.eq hi']
      exact .inr ⟨Nat.lt_succ_self _, hg.number⟩
    · exact absurd hi (not_carries_ended i)
  owner h := by
    obtain ⟨-, hsame⟩ := hg.owner h
    have hid : g'.runId = g.runId + 1 := hsame
    rcases hreleased with hi | ⟨-, hfree⟩
    · exact .inl (by rwa [hid])
    · cases h.symm.trans (hfree hid)
  failed h := absurd h hfailed

/-- A run that took the game and failed while it was being opened. -/
theorem of_failed (hg : g.taken.Untaken g') (hfailed : failed) :
    run.Continued failed g .ended g' where
  started := trivial
  number := Nat.le_of_lt hg.number
  rules := hg.rules
  carries i hi := absurd hi (not_carries_ended i)
  owner h := .inr (.inl ⟨hfailed, (hg.owner h).2⟩)
  failed _ := ⟨hg.number, not_carries_ended _⟩

/-- **One turn after the other**: only the first can be the one that opens the run. -/
theorem trans (h : run.Continued failed g run' g') (h' : run'.Continued False g' run'' g'') :
    run.Continued failed g run'' g'' where
  started := h'.started
  number := Nat.le_trans h.number h'.number
  rules := h'.rules.trans h.rules
  carries i hi := by
    have hle := h.number
    have hle' := h'.number
    rcases h'.carries i hi with hi' | hlt
    · exact (h.carries i hi').imp_right fun hlt => ⟨hlt.1, Nat.le_trans hlt.2 hle'⟩
    · exact .inr ⟨Nat.lt_of_le_of_lt hle hlt.1, hlt.2⟩
  owner hrun := by
    rcases h'.owner hrun with hi | ⟨hno, -⟩ | ⟨hrun', hsame, hnot⟩
    · exact .inl hi
    · exact hno.elim
    · rw [hsame]
      exact .inr ((h.owner hrun').resolve_left hnot)
  failed hf := by
    obtain ⟨hlt, hnot⟩ := h.failed hf
    refine ⟨Nat.lt_of_lt_of_le hlt h'.number, fun hi => ?_⟩
    rcases h'.carries _ hi with hi' | ⟨hlt', -⟩
    · exact hnot hi'
    · omega

end Continued

end Run

namespace Play

open Game

variable {σ α : Type} {tell : Listener σ} {t : Table σ} {g : Game}

/-- **The run fails while it is being opened**: it takes the game, and what is told before its
first line or move is come to fails. -/
structure FailsToOpen (tell : Listener σ) (run : Run) (t : Table σ) : Prop where
  unbegun : ¬run.Started
  idle : t.game.running = false
  unfinished : t.game.world.finished = false
  fails : ∃ f t', (opening tell run).on { t with game := t.game.taken } = (.error f, t')

/-- What a turn has come to, if it has not failed. -/
structure TurnOver (failed : Prop) (run : Run) (g : Game) (bound : Nat)
    (q : Option Report × Run) (g' : Game) : Prop where
  continued : run.Continued failed g q.2 g'
  ended : q.1 = none → q.2 = .ended
  fewer : q.1.isSome = true → q.2.movesLeft g.rules.limits < bound

/-- **A request to a run comes to a turn**, whether it fails or not. -/
theorem comes_next (htell : tell.MayFail) (run : Run) (t : Table σ) :
    Comes (next tell run) t
      (TurnOver (FailsToOpen tell run t) run t.game (run.movesLeft t.game.rules.limits))
      (run.Continued (FailsToOpen tell run t) t.game .ended) := by
  have hself := refl_of Untaken t.game
  by_cases hrun : run.Started
  · have hfailed : ¬FailsToOpen tell run t := fun h => h.unbegun hrun
    cases run with
    | suspended r =>
      refine ((comes_resume (r := r) htell hself).imp fun q g' hq => ?_).guarded fun g' hg => ?_
      · exact ⟨.of_suspended hq.untaken hq.released hfailed, hq.ended, hq.fewer⟩
      · exact .of_suspended (trans_of Untaken hg (untaken_released r.runId g'))
          (.inr ⟨rfl, freeOf_released r.runId g'⟩) hfailed
    | ended =>
      exact .pure ⟨.of_untaken hself (Run.not_carries_ended _) hfailed, fun _ => rfl, nofun⟩
    | batch ds => exact hrun.elim
    | live source => exact hrun.elim
  · have hnone := Run.not_carries_of_not_started hrun t.game.runId
    cases hidle : t.game.running with
    | true =>
      have hfailed : ¬FailsToOpen tell run t := fun h => by cases hidle.symm.trans h.idle
      exact .of_error (on_next_of_busy hrun hidle) (.of_untaken hself hnone hfailed)
    | false =>
      cases hfin : t.game.world.finished with
      | true =>
        have hfailed : ¬FailsToOpen tell run t := fun h => by cases hfin.symm.trans h.unfinished
        have hbegin : Comes (begin tell) t (fun id? g' => id? = none ∧ t.game.Untaken g')
            (run.Continued (FailsToOpen tell run t) t.game .ended) :=
          .of_eq (on_begin_of_finished hidle hfin) <|
            (((Writes.report untaken_status _ _).comes htell hself).mono (fun _ _ hg => hg)
              fun g' hg => .of_untaken hg hnone hfailed).bind fun _ _ hg => .pure ⟨rfl, hg⟩
        have hover {g' : Game} (hg : t.game.Untaken g') : TurnOver (FailsToOpen tell run t) run
            t.game (run.movesLeft t.game.rules.limits) (none, .ended) g' :=
          ⟨.of_untaken hg hnone hfailed, fun _ => rfl, nofun⟩
        cases run with
        | batch ds => exact hbegin.bind (by rintro _ t' ⟨rfl, hg⟩; exact .pure (hover hg))
        | live source => exact hbegin.bind (by rintro _ t' ⟨rfl, hg⟩; exact .pure (hover hg))
        | suspended r => exact absurd trivial hrun
        | ended => exact absurd trivial hrun
      | false =>
        refine .of_eq (on_next_of_idle hrun hidle hfin) ?_
        have hopen := (Writes.opening untaken_status run).takesNone htell
          { t with game := t.game.taken }
        unfold Comes
        rw [on_bind]
        rcases hon : (opening tell run).on { t with game := t.game.taken } with ⟨f | _, t'⟩
        · rw [hon] at hopen
          exact .of_failed hopen ⟨hrun, hidle, hfin, f, t', hon⟩
        · rw [hon] at hopen
          have hfailed : ¬FailsToOpen tell run t := by
            rintro ⟨-, -, -, f, t'', h⟩
            cases hon.symm.trans h
          refine ((comes_onset htell hopen hrun).imp fun q g' hq => ?_).guarded fun g' hg => ?_
          · exact ⟨.of_taken hq.untaken hq.released hfailed, hq.ended, hq.fewer⟩
          · exact .of_taken (trans_of Untaken hg (untaken_released _ g'))
              (.inr ⟨rfl, freeOf_released _ g'⟩) hfailed

/-- The waits of a run do not fail, and leave the game alone. -/
theorem on_waits (htell : tell.MayFail) (ps : List Pace) (t : Table σ) :
    ∃ audience, (ps.forM (await tell)).on t = (.ok (), { t with audience }) := by
  induction ps generalizing t with
  | nil => exact ⟨t.audience, rfl⟩
  | cons p ps ih =>
    obtain ⟨audience, hon⟩ : ∃ audience, (await tell p).on t = (.ok (), { t with audience }) := by
      unfold await
      split
      · exact htell.pause p.seconds t
      · exact ⟨t.audience, rfl⟩
    obtain ⟨audience', hon'⟩ := ih { t with audience }
    refine ⟨audience', ?_⟩
    rw [List.forM, on_bind, hon]
    exact hon'

/-- **A request to a run at its pace.** -/
theorem comes_nextPaced (htell : tell.MayFail) {p : PacedRun}
    (hwait : ¬p.run.Started → ∀ q ∈ p.paces, q.owed = false) (t : Table σ) :
    Comes (nextPaced tell p) t
      (fun q => TurnOver (FailsToOpen tell p.run t) p.run t.game
        (p.movesLeft t.game.rules.limits) (q.1, q.2.run))
      (p.run.Continued (FailsToOpen tell p.run t) t.game .ended) := by
  -- a run that waits has been begun, and then it is not being opened
  obtain ⟨t₁, hon, hgame, hopen⟩ : ∃ t₁, (p.paces.forM (await tell)).on t = (.ok (), t₁) ∧
      t₁.game = t.game ∧ FailsToOpen tell p.run t₁ = FailsToOpen tell p.run t := by
    by_cases hrun : p.run.Started
    · obtain ⟨audience, hon⟩ := on_waits htell p.paces t
      exact ⟨_, hon, rfl, propext
        ⟨fun h => absurd hrun h.unbegun, fun h => absurd hrun h.unbegun⟩⟩
    · exact ⟨t, on_forM_await (hwait hrun), rfl, rfl⟩
  have hnext := comes_next htell p.run t₁
  rw [hgame, hopen] at hnext
  refine .of_eq (show _ = (_ : Play σ _).on t₁ by rw [nextPaced, on_bind, hon]) ?_
  refine hnext.bind ?_
  rintro ⟨res?, run'⟩ t₂ ⟨hcont, hover, hfewer⟩
  cases res? with
  | some res => exact .pure ⟨hcont, hover, hfewer⟩
  | none =>
    cases hover rfl
    exact .pure ⟨hcont, fun _ => rfl, nofun⟩

/-- **All turns of a run are one turn**, at whose end it has ended. -/
theorem comes_take (htell : tell.MayFail) (n : Nat) {p : PacedRun}
    (hwait : ¬p.run.Started → ∀ q ∈ p.paces, q.owed = false)
    (hn : p.movesLeft t.game.rules.limits < n) :
    Comes (take tell (fun _ => pure ()) n p) t
      (fun _ => p.run.Continued (FailsToOpen tell p.run t) t.game .ended)
      (p.run.Continued (FailsToOpen tell p.run t) t.game .ended) := by
  induction n generalizing p t with
  | zero => exact absurd hn (Nat.not_lt_zero _)
  | succ n ih =>
    refine (comes_nextPaced htell hwait t).bind ?_
    rintro ⟨res?, p'⟩ t₁ ⟨hcont, hover, hfewer⟩
    cases res? with
    | none =>
      rw [show p'.run = .ended from hover rfl] at hcont
      exact .pure hcont
    | some res =>
      have hopen : FailsToOpen tell p'.run t₁ = False :=
        eq_false fun h => h.unbegun hcont.started
      have hlt : p'.movesLeft t₁.game.rules.limits < n := by
        rw [hcont.rules]
        exact Nat.lt_of_lt_of_le (hfewer rfl) (Nat.le_of_lt_succ hn)
      have hrest := ih (fun hrun => absurd hcont.started hrun) hlt
      rw [hopen] at hrest
      exact (hrest.mono (fun _ _ h => hcont.trans h) fun _ h => hcont.trans h).bind
        fun _ _ h => .pure h

/-- **To give up a run is its last turn.** -/
theorem comes_close (run : Run) (t : Table σ) :
    Comes (close run) t (fun _ => run.Continued False t.game .ended)
      (run.Continued False t.game .ended) := by
  have hself := refl_of Untaken t.game
  cases run with
  | suspended r =>
    exact .of_ok (on_release r.runId t) <|
      .of_suspended (untaken_released _ _) (.inr ⟨rfl, freeOf_released _ _⟩) id
  | batch ds => exact .pure (.of_untaken hself (Run.not_carries_of_not_started id _) id)
  | live source => exact .pure (.of_untaken hself (Run.not_carries_of_not_started id _) id)
  | ended => exact .pure (.of_untaken hself (Run.not_carries_ended _) id)

/-- **A run was opened**: it is not begun, and no other owns the game. -/
structure Opened (g : Game) (run : Run) (g' : Game) : Prop where
  unbegun : ¬run.Started
  untaken : g.Untaken g'
  idle : g'.running = false

theorem Opened.of_untaken {run : Run} {g' : Game} (hrun : ¬run.Started)
    (hidle : g.running = false) (hg : g.Untaken g') : Opened g run g' :=
  ⟨hrun, hg, eq_false_of_ne_true fun h => by cases (hg.owner h).1.symm.trans hidle⟩

theorem comes_openBatch (htell : tell.MayFail) (source : String) (t : Table σ) :
    Comes (openBatch tell source) t (Opened t.game) t.game.Untaken := by
  have hself := refl_of Untaken t.game
  cases hidle : t.game.running with
  | true => exact .of_error (on_openBatch_of_running source hidle) hself
  | false =>
    refine ((Writes.announceReading untaken_status).comes htell hself).bind fun _ t₁ h₁ => ?_
    refine .game ?_
    split
    · exact ((Writes.report untaken_status _ _).comes htell h₁).bind fun _ _ h₂ => .of_error rfl h₂
    · exact ((Writes.notice _).comes htell h₁).bind fun _ _ h₂ =>
        .pure (.of_untaken id hidle h₂)

theorem comes_openLive (htell : tell.MayFail) (source : String) (t : Table σ) :
    Comes (openLive tell source) t (Opened t.game) t.game.Untaken := by
  have hself := refl_of Untaken t.game
  cases hidle : t.game.running with
  | true => exact .of_error (on_openLive_of_running source hidle) hself
  | false =>
    cases hblank : Text.blank source with
    | true =>
      refine .of_eq (on_openLive_of_blank tell hidle hblank) ?_
      exact ((Writes.report untaken_status _ _).comes htell hself).bind fun _ _ h₂ =>
        .of_error rfl h₂
    | false => exact .of_ok (on_openLive hidle hblank) (.of_untaken id hidle hself)

end Play

/-! ### Who owns the game -/

namespace Sitting

open Game

variable {σ α : Type} {tell : Listener σ} {s : Sitting σ} {name : String} {p p' : PacedRun}
  {t' : Table σ} {dead : Nat → Prop}

/-- **The operation is the first step of a run, and the run fails while it is being opened**
under a given number. -/
def FailsAtOpening (tell : Listener σ) (s : Sitting σ) (id : Nat) : Operation → Prop
  | .next name | .drain name =>
    ∃ p, s.run? name = some p ∧ Play.FailsToOpen tell p.run s.table ∧
      id = s.table.game.runId + 1
  | _ => False

/-- **A run failed while it was being opened** under a given number, in the course of some
operations. -/
def FailedOpening (tell : Listener σ) (id : Nat) : Sitting σ → List Operation → Prop
  | _, [] => False
  | s, o :: os => s.FailsAtOpening tell id o ∨ FailedOpening tell id (s.perform tell o).2 os

/-- **It is known who owns the game**: a run that carries its number, unless that number is
one of those that runs took who failed while they were being opened. -/
structure Accounted (dead : Nat → Prop) (s : Sitting σ) : Prop where
  le : ∀ name i, s.Carries name i → i ≤ s.table.game.runId
  unowed : ∀ name p, s.run? name = some p → ¬p.run.Started → ∀ q ∈ p.paces, q.owed = false
  owner : s.table.game.running = true →
    (∃ name, s.Carries name s.table.game.runId) ∨ dead s.table.game.runId
  dead_le : ∀ i, dead i → i ≤ s.table.game.runId
  uncarried : ∀ i, dead i → ∀ name, ¬s.Carries name i

namespace Accounted

theorem congr {dead' : Nat → Prop} (h : s.Accounted dead) (hdead : ∀ i, dead i ↔ dead' i) :
    s.Accounted dead' := by
  rwa [show dead' = dead from funext fun i => propext (hdead i).symm]

/-- The game is played on, and no run takes it. -/
theorem untaken (h : s.Accounted dead) (hg : s.table.game.Untaken t'.game) :
    Accounted dead { s with table := t' } where
  le name i hi := Nat.le_trans (h.le name i hi) hg.number
  unowed := h.unowed
  owner hrun := by
    obtain ⟨hrun', hsame⟩ := hg.owner hrun
    rw [hsame]
    exact h.owner hrun'
  dead_le i hi := Nat.le_trans (h.dead_le i hi) hg.number
  uncarried := h.uncarried

/-- **A run is put under a name.** What has to be seen to is that it carries no number of a
run that is dead, and that a run that owned the game is not lost. -/
theorem put (h : s.Accounted dead) {dead' : Nat → Prop}
    (hle : s.table.game.runId ≤ t'.game.runId)
    (hwait : ¬p.run.Started → ∀ q ∈ p.paces, q.owed = false)
    (hdead : ∀ i, dead' i → dead i ∨ s.table.game.runId < i ∧ i ≤ t'.game.runId)
    (hcarries : ∀ i, p.run.Carries i → i ≤ t'.game.runId ∧ ¬dead' i)
    (howner : t'.game.running = true → p.run.Carries t'.game.runId ∨
      (∃ other, other ≠ name ∧ s.Carries other t'.game.runId) ∨ dead' t'.game.runId) :
    Accounted dead' (({ s with table := t' } : Sitting σ).put name p) where
  le other i hi := by
    by_cases hname : other = name
    · subst hname
      exact (hcarries i (carries_put_self.mp hi)).1
    · exact Nat.le_trans (h.le other i ((carries_put_of_ne hname).mp hi)) hle
  unowed := forall_run?_put hwait fun other q _ hq => h.unowed other q hq
  owner hrun := by
    rcases howner hrun with hi | ⟨other, hne, hi⟩ | hi
    · exact .inl ⟨name, carries_put_self.mpr hi⟩
    · exact .inl ⟨other, (carries_put_of_ne hne).mpr hi⟩
    · exact .inr hi
  dead_le i hi := by
    rcases hdead i hi with hi' | ⟨-, hi'⟩
    · exact Nat.le_trans (h.dead_le i hi') hle
    · exact hi'
  uncarried i hi other hcarried := by
    by_cases hname : other = name
    · subst hname
      exact (hcarries i (carries_put_self.mp hcarried)).2 hi
    · have hcarried' := (carries_put_of_ne hname).mp hcarried
      rcases hdead i hi with hi' | ⟨hlt, -⟩
      · exact h.uncarried i hi' other hcarried'
      · exact absurd (h.le other i hcarried') (Nat.not_le.mpr hlt)

/-- A run is opened while no run owns the game. -/
theorem put_opened (h : s.Accounted dead) (hg : s.table.game.Untaken t'.game)
    (hidle : t'.game.running = false) {run : Run} (hrun : ¬run.Started) :
    Accounted dead (({ s with table := t' } : Sitting σ).put name ⟨run, []⟩) :=
  h.put hg.number (fun _ => by simp) (fun _ => .inl)
    (fun i hi => absurd hi (Run.not_carries_of_not_started hrun i)) (by simp [hidle])

/-- **A run has its turn.** If it failed while it was being opened, its number is one that
nobody carries. -/
theorem put_continued (h : s.Accounted dead) (hp : s.run? name = some p) {failed : Prop}
    (hturn : p.run.Continued failed s.table.game p'.run t'.game) :
    Accounted (fun i => dead i ∨ failed ∧ i = s.table.game.runId + 1)
      (({ s with table := t' } : Sitting σ).put name p') := by
  have hdead (i : Nat) : (dead i ∨ failed ∧ i = s.table.game.runId + 1) →
      dead i ∨ s.table.game.runId < i ∧ i ≤ t'.game.runId := by
    refine Or.imp_right ?_
    rintro ⟨hf, rfl⟩
    exact ⟨Nat.lt_succ_self _, (hturn.failed hf).1⟩
  refine h.put hturn.number (fun hrun => absurd hturn.started hrun) hdead
    (fun i hi => ⟨?_, ?_⟩) fun hrun => ?_
  · rcases hturn.carries i hi with hi' | ⟨-, hle⟩
    · exact Nat.le_trans (h.le name i ((carries_of_run? hp).mpr hi')) hturn.number
    · exact hle
  · rintro (hi' | ⟨hf, rfl⟩)
    · rcases hturn.carries i hi with hi'' | ⟨hlt, -⟩
      · exact h.uncarried i hi' name ((carries_of_run? hp).mpr hi'')
      · exact absurd (h.dead_le i hi') (Nat.not_le.mpr hlt)
    · exact (hturn.failed hf).2 hi
  · rcases hturn.owner hrun with hi | ⟨hf, hid⟩ | ⟨hrun', hsame, hnot⟩
    · exact .inl hi
    · exact .inr (.inr (.inr ⟨hf, hid⟩))
    · -- whoever owned the game owns it still, and that is another run
      rw [hsame]
      refine .inr ((h.owner hrun').imp ?_ .inl)
      rintro ⟨other, hi⟩
      refine ⟨other, fun heq => hnot ?_, hi⟩
      rw [heq] at hi
      exact (carries_of_run? hp).mp hi

/-- **A run is slowed down.** -/
theorem put_slowed (h : s.Accounted dead) (hp : s.run? name = some p) (seconds : Float) :
    Accounted dead (s.put name (p.slowed seconds)) := by
  refine h.put (Nat.le_refl _) (fun hrun q hq => ?_) (fun _ => .inl) (fun i hi => ?_) fun hrun => ?_
  · rcases List.mem_cons.mp hq with rfl | hq
    · rfl
    · exact h.unowed name p hp hrun q hq
  · have hi' := (carries_of_run? hp).mpr hi
    exact ⟨h.le name i hi', fun hd => h.uncarried i hd name hi'⟩
  · rcases h.owner hrun with ⟨other, hi⟩ | hi
    · by_cases hne : other = name
      · subst hne
        exact .inl ((carries_of_run? hp).mp hi)
      · exact .inr (.inl ⟨other, hne, hi⟩)
    · exact .inr (.inr hi)

end Accounted

/-! ### Operations -/

/-- **It is still known who owns the game**, and its number has not gone back. -/
structure StaysAccounted (dead : Nat → Prop) (s s' : Sitting σ) : Prop where
  accounted : s'.Accounted dead
  number : s.table.game.runId ≤ s'.table.game.runId

theorem StaysAccounted.congr {dead' : Nat → Prop} {s s' : Sitting σ}
    (h : StaysAccounted dead s s') (hdead : ∀ i, dead i ↔ dead' i) : StaysAccounted dead' s s' :=
  ⟨h.accounted.congr hdead, h.number⟩

theorem staysAccounted_only (h : s.Accounted dead) {act : Play σ α} (hact : Play.TakesNone act)
    (reply : α → Reply) : StaysAccounted dead s (s.only act reply).2 := by
  rw [only_snd]
  exact ⟨h.untaken (hact s.table), (hact s.table).number⟩

theorem staysAccounted_openRun (h : s.Accounted dead) {act : Play σ Run}
    (hact : Play.Comes act s.table (Play.Opened s.table.game) s.table.game.Untaken)
    (name : String) : StaysAccounted dead s (s.openRun name act).2 := by
  unfold Play.Comes at hact
  unfold openRun play
  generalize act.on s.table = p at hact ⊢
  obtain ⟨_ | run, t'⟩ := p
  · exact ⟨h.untaken hact, hact.number⟩
  · exact ⟨h.put_opened hact.untaken hact.idle hact.unbegun, hact.untaken.number⟩

theorem staysAccounted_withRun (h : s.Accounted dead)
    {act : PacedRun → Play σ (α × PacedRun)} {reply : α → Reply} (failed : PacedRun → Prop)
    (hact : ∀ p, s.run? name = some p → Play.Comes (act p) s.table
      (fun q => p.run.Continued (failed p) s.table.game q.2.run)
      (p.run.Continued (failed p) s.table.game .ended)) :
    StaysAccounted
      (fun i => dead i ∨ ∃ p, s.run? name = some p ∧ failed p ∧ i = s.table.game.runId + 1)
      s (s.withRun name act reply).2 := by
  cases hp : s.run? name with
  | none =>
    rw [withRun_of_none hp]
    exact ⟨h.congr fun i => by simp, Nat.le_refl _⟩
  | some p =>
    -- a run that failed is put down as one that has ended
    obtain ⟨p', t', hput, hturn⟩ : ∃ p' t', (s.withRun name act reply).2 =
        ({ s with table := t' } : Sitting σ).put name p' ∧
        p.run.Continued (failed p) s.table.game p'.run t'.game := by
      have hcomes := hact p hp
      unfold Play.Comes at hcomes
      rcases hon : (act p).on s.table with ⟨f | ⟨a, p'⟩, t'⟩
      · rw [hon] at hcomes
        exact ⟨.ended, t', by rw [withRun_of_error hp hon], hcomes⟩
      · rw [hon] at hcomes
        exact ⟨p', t', by rw [withRun_of_ok hp hon], hcomes⟩
    rw [hput]
    exact ⟨(h.put_continued hp hturn).congr fun i => by simp, hturn.number⟩

/-- **After every operation it is known who owns the game.** -/
theorem Accounted.perform (h : s.Accounted dead) (htell : tell.MayFail) (o : Operation) :
    StaysAccounted (fun i => dead i ∨ s.FailsAtOpening tell i o) s (s.perform tell o).2 := by
  have hplain (h' : StaysAccounted dead s (s.perform tell o).2)
      (hno : ∀ i, ¬s.FailsAtOpening tell i o) :
      StaysAccounted (fun i => dead i ∨ s.FailsAtOpening tell i o) s (s.perform tell o).2 :=
    h'.congr fun i => (or_iff_left (hno i)).symm
  have honly {α : Type} {act : Play σ α} (hact : Play.Writes tell Untaken act)
      (reply : α → Reply) : StaysAccounted dead s (s.only act reply).2 :=
    staysAccounted_only h (hact.takesNone htell) reply
  cases o with
  | next name =>
    exact staysAccounted_withRun h _ fun p hp =>
      (Play.comes_nextPaced htell (h.unowed name p hp) s.table).imp fun _ _ hq => hq.continued
  | drain name =>
    refine staysAccounted_withRun h _ fun p hp => ?_
    have htake := Play.comes_take (t := s.table) htell _ (h.unowed name p hp)
      (Nat.lt_succ_self _)
    exact Play.Comes.bind (.game htake) fun _ _ hq => .pure hq
  | close name =>
    refine (staysAccounted_withRun h (fun _ => False) fun p hp => ?_).congr fun i => by
      simp [FailsAtOpening]
    exact (Play.comes_close p.run s.table).bind fun _ _ hq => .pure hq
  | slow name seconds =>
    refine hplain ?_ fun _ => id
    change StaysAccounted dead s (s.withRun name _ _).2
    cases hp : s.run? name with
    | none =>
      rw [withRun_of_none hp]
      exact ⟨h, Nat.le_refl _⟩
    | some p =>
      rw [withRun_of_ok hp (Play.on_pure _ _)]
      exact ⟨h.put_slowed hp seconds, Nat.le_refl _⟩
  | openBatch name source =>
    exact hplain (staysAccounted_openRun h (Play.comes_openBatch htell source _) name) fun _ => id
  | openLive name source =>
    exact hplain (staysAccounted_openRun h (Play.comes_openLive htell source _) name) fun _ => id
  | step a => exact hplain (honly (Play.Writes.untaken_step a) _) fun _ => id
  | cancel => exact hplain (honly Play.Writes.untaken_cancel _) fun _ => id
  | reset => exact hplain (honly Play.Writes.untaken_reset _) fun _ => id
  | setDifficulty preset =>
    exact hplain (honly (Play.Writes.untaken_setDifficulty preset) _) fun _ => id
  | solution => exact hplain (honly Play.Writes.solution _) fun _ => id

/-- **So it is after every sequence of operations.** -/
theorem Accounted.performAll (h : s.Accounted dead) (htell : tell.MayFail)
    (os : List Operation) :
    Accounted (fun i => dead i ∨ FailedOpening tell i s os) (s.performAll tell os).2 := by
  induction os generalizing s dead with
  | nil => exact h.congr fun i => (or_iff_left id).symm
  | cons o os ih => exact (ih (h.perform htell o).accounted).congr fun i => or_assoc

/-! ### Runs that hold the game -/

/-- A new game is owned by no run. -/
theorem accounted_new (htell : tell.MayFail) (rules : Rules) (maze : Maze) (audience : σ) :
    Accounted (fun _ => False) ⟨(Game.new tell rules maze audience).2, []⟩ := by
  have hun := Play.Writes.untaken_reset.takesNone htell ⟨Game.unopened rules maze, audience⟩
  refine ⟨nofun, nofun, fun hrun => ?_, nofun, nofun⟩
  cases (hun.owner hrun).1

/-- **A game is owned by a run that is still there, or it was taken by a run that failed while
it was being opened**, and never both, after any operations in any order on any number of
runs, wherever the listener fails. -/
theorem carried_iff_of_running (htell : tell.MayFail) (rules : Rules) (maze : Maze)
    (audience : σ) (os : List Operation) {s₀ s : Sitting σ}
    (hnew : s₀ = ⟨(Game.new tell rules maze audience).2, []⟩)
    (hs : s = (s₀.performAll tell os).2) (hrun : s.table.game.running = true) :
    (∃ name, s.Carries name s.table.game.runId) ↔
      ¬FailedOpening tell s.table.game.runId s₀ os := by
  subst hnew hs
  have h := (accounted_new htell rules maze audience).performAll htell os
  constructor
  · rintro ⟨name, hi⟩ hfailed
    exact h.uncarried _ (.inr hfailed) name hi
  · exact fun hnot => (h.owner hrun).resolve_right (by simpa using hnot)

/-- The operations of a sitting in which a run is opened, asked for a step and given up. -/
def abandonment : List Operation :=
  [.openBatch "first" "moveRight();", .next "first", .close "first"]

/-- A sitting in which a maze that does not exist is asked for when the player is told that a
run has taken the game. -/
def abandoned : Sitting Journal :=
  (performAll Journal.hear
    ⟨(Game.new Journal.hear {} Preset.easy.maze
      { alarms := [⟨.status, 3, .setDifficulty "nope"⟩] }).2, []⟩ abandonment).2

/-- The run took the game under the number 2, and it has ended. -/
theorem abandoned_running : abandoned.table.game.running = true ∧
    abandoned.table.game.runId = 2 ∧ abandoned.runs.map (·.2.run) = [.ended] := by
  decide +kernel

theorem not_carries_abandoned (name : String) (id : Nat) : ¬abandoned.Carries name id := by
  rintro ⟨p, hp, hi⟩
  have hmem : p.run ∈ abandoned.runs.map (·.2.run) := by
    obtain ⟨l, l', hruns, -⟩ := List.lookup_eq_some_iff.mp hp
    rw [hruns]
    simp
  rw [abandoned_running.2.2, List.mem_singleton] at hmem
  exact Run.not_carries_ended id (hmem ▸ hi)

/-- **A game may be owned by a run that has ended.** -/
theorem not_forall_carried_of_running :
    ¬∀ (audience : Journal) (os : List Operation) (s : Sitting Journal),
      s = (performAll Journal.hear
        ⟨(Game.new Journal.hear {} Preset.easy.maze audience).2, []⟩ os).2 →
      s.table.game.running = true → ∃ name, s.Carries name s.table.game.runId := by
  intro h
  obtain ⟨name, hi⟩ := h { alarms := [⟨.status, 3, .setDifficulty "nope"⟩] } abandonment abandoned
    rfl abandoned_running.1
  exact not_carries_abandoned name _ hi

/-- The game is owned under the number of the run that failed. -/
theorem carried_iff_of_running_abandoned :
    Journal.hear.MayFail ∧ abandoned.table.game.running = true ∧
      FailedOpening Journal.hear abandoned.table.game.runId
        ⟨(Game.new Journal.hear {} Preset.easy.maze
          { alarms := [⟨.status, 3, .setDifficulty "nope"⟩] }).2, []⟩ abandonment := by
  refine ⟨Journal.mayFail_hear, abandoned_running.1, by_contra fun hnot => ?_⟩
  obtain ⟨name, hi⟩ := (carried_iff_of_running (s := abandoned) Journal.mayFail_hear {}
    Preset.easy.maze { alarms := [⟨.status, 3, .setDifficulty "nope"⟩] } abandonment rfl rfl
    abandoned_running.1).mpr hnot
  exact not_carries_abandoned name _ hi

end Sitting

end ScriptedMaze
