import ScriptedMaze.Proofs.Play.Steps
import ScriptedMaze.Proofs.Play.Writes

/-!
# One run owns the game

Any number of runs may be open at a table, and they may be asked for their steps in any
order, while the game is stopped, started over and changed in between, and in the middle
of a step by whoever listens. All the same, at most one of them owns the game at any
time (`Sitting.oneOwner_performAll`).

Why that is so is `Sitting.InOrder`, which every operation keeps. The numbers that runs
carry were given before, and no number was given twice; a run that carries the number of
the game is in progress or was told to stop; and if some run is in progress, one of those
at the table carries the number of the game. A number that is not the game's any more
will never be again, as the numbers of a game only grow.
-/

namespace ScriptedMaze

namespace Sitting

variable {σ : Type} {tell : Listener σ} {fit : σ → Prop} {s : Sitting σ}
  {name other : String} {id : Nat} {p p' : PacedRun} {t' : Table σ}

/-- **The run of a given name carries a number**: it has been begun under that number and
has not ended. -/
def Carries (s : Sitting σ) (name : String) (id : Nat) : Prop :=
  ∃ p, s.run? name = some p ∧ p.run.Carries id

/-- **A sitting in order.** -/
structure InOrder (fit : σ → Prop) (s : Sitting σ) : Prop where
  fit : fit s.table.audience
  settled : s.table.game.Settled
  fits : ∀ name p, s.run? name = some p → p.run.Fits s.table.game
  /-- A run that was not begun owes no wait. -/
  unowed : ∀ name p, s.run? name = some p → ¬p.run.Started → ∀ q ∈ p.paces, q.owed = false
  /-- No number was given twice. -/
  alone : ∀ name other id, s.Carries name id → s.Carries other id → name = other
  owner : s.table.game.running = true → ∃ name, s.Carries name s.table.game.runId

/-! ### Runs under their names -/

theorem carries_of_run? (h : s.run? name = some p) : s.Carries name id ↔ p.run.Carries id :=
  ⟨fun ⟨_, hq, hi⟩ => Option.some.inj (h.symm.trans hq) ▸ hi, fun hi => ⟨p, h, hi⟩⟩

theorem carries_put_self : (s.put name p).Carries name id ↔ p.run.Carries id :=
  carries_of_run? (by rw [run?_put, if_pos rfl])

theorem carries_put_of_ne (h : other ≠ name) :
    (s.put name p).Carries other id ↔ s.Carries other id := by
  unfold Carries
  rw [run?_put, if_neg h]

/-- What holds of a run that is put under a name and of the runs there were before, holds of
all runs. -/
theorem forall_run?_put {P : PacedRun → Prop} (hself : P p)
    (h : ∀ other q, other ≠ name → s.run? other = some q → P q) :
    ∀ other q, (s.put name p).run? other = some q → P q := by
  intro other q hq
  rw [run?_put] at hq
  split at hq
  · cases hq
    exact hself
  · rename_i hne
    exact h other q hne hq

namespace InOrder

/-- **The game is played on**, and the runs are left as they are. -/
theorem onward (h : s.InOrder fit) (ht : fit t'.audience) (hg : s.table.game.Onward t'.game) :
    InOrder fit { s with table := t' } where
  fit := ht
  settled := hg.settled
  fits name p hp := (h.fits name p hp).onward hg
  unowed := h.unowed
  alone := h.alone
  owner hrun := by
    obtain ⟨hrun', hsame⟩ := hg.running hrun
    obtain ⟨name, hi⟩ := h.owner hrun'
    exact ⟨name, hsame ▸ hi⟩

/-- **A run is put under a name** while the game is played on. What has to be seen to is that
no other run carries its number, and that a run that owned the game is not lost. -/
theorem put (h : s.InOrder fit) (name : String) (ht : fit t'.audience) (hset : t'.game.Settled)
    (hfits : p.run.Fits t'.game) (hwait : ¬p.run.Started → ∀ q ∈ p.paces, q.owed = false)
    (hothers : ∀ other q, other ≠ name → s.run? other = some q → q.run.Fits t'.game)
    (hapart : ∀ other i, other ≠ name → s.Carries other i → ¬p.run.Carries i)
    (howner : t'.game.running = true → p.run.Carries t'.game.runId ∨
      ∃ other, other ≠ name ∧ s.Carries other t'.game.runId) :
    InOrder fit (({ s with table := t' } : Sitting σ).put name p) where
  fit := ht
  settled := hset
  fits := forall_run?_put hfits hothers
  unowed := forall_run?_put hwait fun other q _ hq => h.unowed other q hq
  alone other other' i hi hi' := by
    by_cases hname : other = name
    · subst hname
      by_contra hne
      have hne' : other' ≠ other := fun heq => hne heq.symm
      exact hapart other' i hne' ((carries_put_of_ne hne').mp hi') (carries_put_self.mp hi)
    · rw [carries_put_of_ne hname] at hi
      by_cases hname' : other' = name
      · subst hname'
        exact absurd (carries_put_self.mp hi') (hapart other i hname hi)
      · exact h.alone other other' i hi ((carries_put_of_ne hname').mp hi')
  owner hrun := by
    rcases howner hrun with hi | ⟨other, hne, hi⟩
    · exact ⟨name, carries_put_self.mpr hi⟩
    · exact ⟨other, (carries_put_of_ne hne).mpr hi⟩

/-- **A run has its turn.** -/
theorem put_turn (h : s.InOrder fit) (hp : s.run? name = some p) (ht : fit t'.audience)
    (hturn : Run.Turn p.run s.table.game p'.run t'.game) :
    InOrder fit (({ s with table := t' } : Sitting σ).put name p') := by
  have hwait : ¬p'.run.Started → ∀ q ∈ p'.paces, q.owed = false :=
    fun hrun => absurd hturn.started hrun
  have hput := h.put name ht hturn.settled hturn.fits hwait
  cases hturn with
  | gone ended onward released =>
    refine hput (fun other q _ hq => (h.fits other q hq).onward onward)
      (fun _ i _ _ => ended ▸ Run.not_carries_ended i) fun hrun => .inr ?_
    -- the run that owns the game owned it before, and so it is another one
    obtain ⟨hrun', hsame⟩ := onward.running hrun
    obtain ⟨other, hi⟩ := h.owner hrun'
    refine ⟨other, fun heq => ?_, hsame ▸ hi⟩
    rw [heq, carries_of_run? hp] at hi
    cases hrun.symm.trans (released hi)
  | made id number left =>
    -- the numbers of the other runs are older
    have holder : ∀ other i, other ≠ name → s.Carries other i → i < id := by
      intro other i hne hi
      have hle : i ≤ s.table.game.runId := by
        obtain ⟨q, hq, hi'⟩ := hi
        exact (h.fits other q hq).le i hi'
      rcases number with hlt | ⟨hid, hi'⟩
      · exact Nat.lt_of_le_of_lt hle hlt
      · refine Nat.lt_of_le_of_ne (hid ▸ hle) fun heq => hne ?_
        exact h.alone other name i hi ((carries_of_run? hp).mpr (heq ▸ hi'))
    have hle := left.le
    refine hput (fun other q hne hq => ⟨fun i hi => ?_, fun hi => ?_⟩)
      (fun other i hne hi hi' => ?_) fun hrun => .inl (left.owner hrun)
    · have := holder other i hne ⟨q, hq, hi⟩
      omega
    · have := holder other _ hne ⟨q, hq, hi⟩
      omega
    · exact Nat.ne_of_lt (holder other i hne hi) (left.number i hi')

/-- **A run is opened** while no run owns the game. -/
theorem put_opened (h : s.InOrder fit) (ht : fit t'.audience)
    (hg : s.table.game.Onward t'.game) (hidle : t'.game.running = false) {run : Run}
    (hrun : ¬run.Started) :
    InOrder fit (({ s with table := t' } : Sitting σ).put name ⟨run, []⟩) := by
  have hnone := Run.not_carries_of_not_started hrun
  exact h.put name ht hg.settled (.of_not_carries hnone _) (fun _ => by simp)
    (fun other q _ hq => (h.fits other q hq).onward hg) (fun _ i _ _ => hnone i)
    (by simp [hidle])

/-- **A run is slowed down.** -/
theorem put_slowed (h : s.InOrder fit) (hp : s.run? name = some p) (seconds : Float) :
    InOrder fit (s.put name (p.slowed seconds)) := by
  refine h.put name h.fit h.settled (h.fits name p hp) (fun hrun q hq => ?_)
    (fun other q _ hq => h.fits other q hq) (fun other i hne hi hi' => hne ?_) fun hrun => ?_
  · rcases List.mem_cons.mp hq with rfl | hq
    · rfl
    · exact h.unowed name p hp hrun q hq
  · exact h.alone other name i hi ((carries_of_run? hp).mpr hi')
  · obtain ⟨other, hi⟩ := h.owner hrun
    by_cases hne : other = name
    · subst hne
      exact .inl ((carries_of_run? hp).mp hi)
    · exact .inr ⟨other, hne, hi⟩

end InOrder

end Sitting

/-! ### Plays that concern no run, and runs that are opened -/

namespace Play

variable {σ α : Type} {tell : Listener σ} {fit : σ → Prop} {t : Table σ}

/-- **The game is played on in order**, whatever comes of the play. -/
def GoesOn (fit : σ → Prop) (act : Play σ α) (t : Table σ) : Prop :=
  fit (act.on t).2.audience ∧ t.game.Onward (act.on t).2.game

/-- **The game is played on in order, and if a run comes of it**, the run is not begun, and
no other owns the game. -/
structure Opens (fit : σ → Prop) (act : Play σ Run) (t : Table σ) : Prop where
  goesOn : GoesOn fit act t
  opened : ∀ run, (act.on t).1 = .ok run → ¬run.Started ∧ (act.on t).2.game.running = false

theorem GoesOn.of_on {act : Play σ α} {res : Except GameFault α} {t' : Table σ}
    (h : act.on t = (res, t')) (ht : fit t'.audience) (hg : t.game.Onward t'.game) :
    GoesOn fit act t := by
  unfold GoesOn
  rw [h]
  exact ⟨ht, hg⟩

theorem Succeeds.goesOn {act : Play σ α}
    (h : Succeeds act t fun _ t' => fit t'.audience ∧ t.game.Onward t'.game) :
    GoesOn fit act t := by
  obtain ⟨a, t', hon, ht', hg⟩ := h
  exact .of_on hon ht' hg

theorem Within.goesOn {act : Play σ α} (h : Within fit Game.Disturbed act) (ht : fit t.audience)
    (hset : t.game.Settled) : GoesOn fit act t :=
  ((h t ht).mono fun _ _ h' => ⟨h'.1, h'.2.onward hset⟩).goesOn

/-- A single move, which is refused while a run owns the game. -/
theorem goesOn_step (h : tell.StaysWithin fit Game.Disturbed) (ht : fit t.audience)
    (hset : t.game.Settled) (a : Action) : GoesOn fit (step tell a) t := by
  cases hrun : t.game.running with
  | true => exact .of_on (on_step_of_running a hrun) ht (.refl hset)
  | false =>
    refine Succeeds.goesOn (.of_eq (on_step a hrun) ((succeeds_perform h ht a).mono ?_))
    rintro _ t' ⟨-, ht', g, hmove, hd⟩
    have hmoved := hmove.onward hset hrun
    exact ⟨ht', hmoved.trans (hd.onward hmoved.settled)⟩

theorem goesOn_setDifficulty (h : tell.CallsBack fit) (ht : fit t.audience)
    (hset : t.game.Settled) (name : String) : GoesOn fit (setDifficulty tell name) t := by
  cases hm : Maze.named name with
  | ok m =>
    have hplay : Within fit Game.Disturbed (setDifficulty tell name) :=
      Stirs.within (Stirs.setDifficulty h hm)
    exact hplay.goesOn ht hset
  | error f =>
    have hon : (setDifficulty tell name).on t = (.error (.maze f), t) := by
      unfold setDifficulty
      rw [hm]
      rfl
    exact .of_on hon ht (.refl hset)

theorem Opens.of_on {act : Play σ Run} {res : Except GameFault Run} {t' : Table σ}
    (h : act.on t = (res, t')) (ht : fit t'.audience) (hset : t.game.Settled)
    (hd : Game.Disturbed t.game t'.game)
    (hres : ∀ run, res = .ok run → ¬run.Started ∧ t.game.running = false) : Opens fit act t where
  goesOn := .of_on h ht (hd.onward hset)
  opened run hrun := by
    rw [h] at hrun ⊢
    exact ⟨(hres run hrun).1, hd.not_running (hres run hrun).2⟩

theorem opens_batch (h : tell.StaysWithin fit Game.Disturbed) (ht : fit t.audience)
    (hset : t.game.Settled) (source : String) : Opens fit (openBatch tell source) t := by
  cases hrun : t.game.running with
  | true => exact .of_on (on_openBatch_of_running source hrun) ht hset (.refl _) nofun
  | false =>
    obtain ⟨_, t₁, htold, ht₁, hd₁⟩ := Within.report h "Parsing code..." .info t ht
    have hon := on_openBatch_of_told source hrun htold
    cases hread : Script.commands t₁.game.rules.limits source with
    | error f =>
      obtain ⟨_, t₂, hon₂, ht₂, hd₂⟩ :=
        Within.report h ("Code error: " ++ f.message) .error t₁ ht₁
      rw [hread] at hon
      dsimp only at hon
      rw [on_bind, hon₂] at hon
      exact .of_on hon ht₂ hset (hd₁.trans hd₂) nofun
    | ok ds =>
      obtain ⟨_, t₂, hon₂, ht₂, hd₂⟩ :=
        Within.notice h (.debug ("Parsed command sequence: " ++ Script.describe ds)) t₁ ht₁
      rw [hread] at hon
      dsimp only at hon
      rw [on_bind, hon₂] at hon
      exact .of_on hon ht₂ hset (hd₁.trans hd₂) (by rintro _ ⟨⟩; exact ⟨id, hrun⟩)

theorem opens_live (h : tell.StaysWithin fit Game.Disturbed) (ht : fit t.audience)
    (hset : t.game.Settled) (source : String) : Opens fit (openLive tell source) t := by
  cases hrun : t.game.running with
  | true => exact .of_on (on_openLive_of_running source hrun) ht hset (.refl _) nofun
  | false =>
    cases hblank : Text.blank source with
    | true =>
      obtain ⟨_, t₁, hon₁, ht₁, hd₁⟩ := Within.report h
        ("Code error: " ++ Script.Fault.emptyProgram.message) .error t ht
      have hon := on_openLive_of_blank tell hrun hblank
      rw [on_bind, hon₁] at hon
      exact .of_on hon ht₁ hset hd₁ nofun
    | false =>
      exact .of_on (on_openLive hrun hblank) ht hset (.refl _) (by rintro _ ⟨⟩; exact ⟨id, hrun⟩)

end Play

namespace Sitting

variable {σ α : Type} {tell : Listener σ} {fit : σ → Prop} {s : Sitting σ} {name : String}

/-- **The sitting is in order after something was done**, and the number of its game has not
gone back. -/
def Follows (fit : σ → Prop) (s s' : Sitting σ) : Prop :=
  s'.InOrder fit ∧ s.table.game.runId ≤ s'.table.game.runId

/-! ### Operations -/

theorem only_snd (s : Sitting σ) (act : Play σ α) (reply : α → Reply) :
    (s.only act reply).2 = { s with table := (act.on s.table).2 } := by
  unfold only play
  rcases act.on s.table with ⟨_ | _, _⟩ <;> rfl

theorem follows_only (h : s.InOrder fit) {act : Play σ α} (hact : Play.GoesOn fit act s.table)
    (reply : α → Reply) : Follows fit s (s.only act reply).2 := by
  rw [only_snd]
  exact ⟨h.onward hact.1 hact.2, hact.2.number⟩

theorem follows_openRun (h : s.InOrder fit) {act : Play σ Run}
    (hact : Play.Opens fit act s.table) (name : String) :
    Follows fit s (s.openRun name act).2 := by
  obtain ⟨⟨ht, hg⟩, hopened⟩ := hact
  unfold openRun play
  rcases hon : act.on s.table with ⟨_ | run, t'⟩
  · rw [hon] at ht hg
    exact ⟨h.onward ht hg, hg.number⟩
  · rw [hon] at ht hg hopened
    obtain ⟨hrun, hidle⟩ := hopened run rfl
    exact ⟨h.put_opened ht hg hidle hrun, hg.number⟩

theorem withRun_of_none {act : PacedRun → Play σ (α × PacedRun)} {reply : α → Reply}
    (h : s.run? name = none) : s.withRun name act reply = (.error .noSuchRun, s) := by
  unfold withRun
  rw [h]

theorem withRun_of_ok {act : PacedRun → Play σ (α × PacedRun)} {reply : α → Reply}
    {p p' : PacedRun} {a : α} {t' : Table σ} (h : s.run? name = some p)
    (hon : (act p).on s.table = (.ok (a, p'), t')) :
    s.withRun name act reply =
      (.ok (reply a), ({ s with table := t' } : Sitting σ).put name p') := by
  unfold withRun play
  rw [h]
  dsimp only
  rw [hon]

theorem withRun_of_error {act : PacedRun → Play σ (α × PacedRun)} {reply : α → Reply}
    {p : PacedRun} {f : GameFault} {t' : Table σ} (h : s.run? name = some p)
    (hon : (act p).on s.table = (.error f, t')) :
    s.withRun name act reply =
      (.error (.game f), ({ s with table := t' } : Sitting σ).put name .ended) := by
  unfold withRun play
  rw [h]
  dsimp only
  rw [hon]

theorem withRun_table {act : PacedRun → Play σ (α × PacedRun)} {reply : α → Reply} {p : PacedRun}
    (h : s.run? name = some p) :
    (s.withRun name act reply).2.table = ((act p).on s.table).2 := by
  rcases hon : (act p).on s.table with ⟨_ | ⟨a, p'⟩, t'⟩
  · rw [withRun_of_error h hon]
    rfl
  · rw [withRun_of_ok h hon]
    rfl

theorem openRun_table (s : Sitting σ) (name : String) (act : Play σ Run) :
    (s.openRun name act).2.table = (act.on s.table).2 := by
  unfold openRun play
  rcases act.on s.table with ⟨_ | _, _⟩ <;> rfl

/-- **A run has its turn, or is refused it** because it was not begun and another owns the
game. -/
theorem follows_withRun (h : s.InOrder fit) {act : PacedRun → Play σ (α × PacedRun)}
    {reply : α → Reply}
    (hact : ∀ p, s.run? name = some p →
      Play.Succeeds (act p) s.table (fun a t' =>
        fit t'.audience ∧ p.run.Turn s.table.game a.2.run t'.game) ∨
      ¬p.run.Started ∧ ∃ f, (act p).on s.table = (.error f, s.table)) :
    Follows fit s (s.withRun name act reply).2 := by
  cases hp : s.run? name with
  | none =>
    rw [withRun_of_none hp]
    exact ⟨h, Nat.le_refl _⟩
  | some p =>
    rcases hact p hp with ⟨⟨a, p'⟩, t', hon, ht, hturn⟩ | ⟨hrun, f, hon⟩
    · rw [withRun_of_ok hp hon]
      exact ⟨h.put_turn hp ht hturn, hturn.number_le⟩
    · have hturn : p.run.Turn s.table.game PacedRun.ended.run s.table.game :=
        .gone rfl (.refl h.settled) fun hi =>
          absurd hi (Run.not_carries_of_not_started hrun _)
      rw [withRun_of_error hp hon]
      exact ⟨h.put_turn hp h.fit hturn, Nat.le_refl _⟩

/-- A run may be asked for a step, or is refused it. -/
theorem started_or_idle (p : PacedRun) (g : Game) :
    (p.run.Started ∨ g.running = false) ∨ ¬p.run.Started ∧ g.running = true := by
  by_cases hrun : p.run.Started
  · exact .inl (.inl hrun)
  · cases hidle : g.running with
    | true => exact .inr ⟨hrun, rfl⟩
    | false => exact .inl (.inr rfl)

/-- **Every operation keeps the sitting in order.** -/
theorem InOrder.perform (h : s.InOrder fit) (htell : tell.CallsBack fit) (o : Operation) :
    Follows fit s (s.perform tell o).2 := by
  have hset := h.settled
  have hwithin := htell.staysWithin
  cases o with
  | step a => exact follows_only h (Play.goesOn_step hwithin h.fit hset a) _
  | openBatch name source =>
    exact follows_openRun h (Play.opens_batch hwithin h.fit hset source) name
  | openLive name source =>
    exact follows_openRun h (Play.opens_live hwithin h.fit hset source) name
  | next name =>
    refine follows_withRun h fun p hp => (started_or_idle p s.table.game).imp (fun hmay => ?_) ?_
    · exact (Play.succeeds_nextPaced hwithin h.fit hset (h.fits name p hp) hmay).mono
        fun _ _ h' => ⟨h'.fit, h'.turn⟩
    · rintro ⟨hrun, hbusy⟩
      exact ⟨hrun, .busy, Play.on_nextPaced_of_busy hrun (h.unowed name p hp hrun) hbusy⟩
  | drain name =>
    refine follows_withRun h fun p hp => (started_or_idle p s.table.game).imp (fun hmay => ?_) ?_
    · exact (Play.succeeds_drain hwithin h.fit hset (h.fits name p hp) hmay).bind
        fun _ _ h' => .pure h'
    · rintro ⟨hrun, hbusy⟩
      refine ⟨hrun, .busy, ?_⟩
      rw [Play.on_bind, Play.on_drain_of_busy hrun (h.unowed name p hp hrun) hbusy]
  | close name =>
    refine follows_withRun h fun p hp => .inl ?_
    exact (Play.succeeds_close h.fit hset (h.fits name p hp)).bind fun _ _ h' => .pure h'
  | slow name seconds =>
    change Follows fit s (s.withRun name _ _).2
    cases hp : s.run? name with
    | none =>
      rw [withRun_of_none hp]
      exact ⟨h, Nat.le_refl _⟩
    | some p =>
      rw [withRun_of_ok hp (Play.on_pure _ _)]
      exact ⟨h.put_slowed hp seconds, Nat.le_refl _⟩
  | cancel =>
    exact follows_only h (Play.Within.goesOn (Play.Stirs.within Play.Stirs.cancel) h.fit hset) _
  | reset => exact follows_only h ((Play.Within.reset htell).goesOn h.fit hset) _
  | setDifficulty preset =>
    exact follows_only h (Play.goesOn_setDifficulty htell h.fit hset preset) _
  | solution => exact follows_only h ((Play.Within.solution hwithin).goesOn h.fit hset) _

/-- **So does every sequence of operations.** -/
theorem InOrder.performAll (h : s.InOrder fit) (htell : tell.CallsBack fit)
    (os : List Operation) : Follows fit s (s.performAll tell os).2 := by
  induction os generalizing s with
  | nil => exact ⟨h, Nat.le_refl _⟩
  | cons o os ih =>
    obtain ⟨h₁, hle₁⟩ := h.perform htell o
    obtain ⟨h₂, hle₂⟩ := ih h₁
    exact ⟨h₂, Nat.le_trans hle₁ hle₂⟩

/-! ### One owner -/

/-- **At most one run owns the game**, and a run that has lost it is no longer heard of. -/
structure OneOwner (tell : Listener σ) (s : Sitting σ) : Prop where
  running_iff : s.table.game.running = true ↔ s.table.game.phase = .running
  finished : s.table.game.phase = .finished → s.table.game.world.finished = true
  /-- While the game is owned, it is not over, and one run alone carries its number. -/
  owner : s.table.game.running = true →
    s.table.game.world.finished = false ∧ ∃! name, s.Carries name s.table.game.runId
  /-- A number that the game has lost does not come back, whatever is done. -/
  lost : ∀ name id, s.Carries name id → s.table.game.runId ≠ id →
    ∀ os, (s.performAll tell os).2.table.game.runId ≠ id
  /-- A run that was begun and does not carry the number of the game has nothing to report:
  it ends, and on the way there is nothing but the waits that it owed. -/
  silent : ∀ name p, s.run? name = some p → p.run.Started →
    ¬p.run.Carries s.table.game.runId → ∃ t,
      s.perform tell (.next name) =
        (.ok (.next none), ({ s with table := t } : Sitting σ).put name .ended) ∧
      Play.Account tell (fun _ _ => False) s.table t ∧
      ((∀ q ∈ p.paces, q.owed = false) → t = s.table)
  /-- What a run writes that was begun, from any moment on at which the game carries another
  number, is the status alone. -/
  writes : ∀ name p r, s.run? name = some p → p.run = .suspended r →
    ∀ o ∈ [Operation.next name, .close name],
      Play.Account tell (Game.OwnWrite r.runId) s.table (s.perform tell o).2.table
  /-- The same goes for what a run writes in its first step after it has taken the game. -/
  begins : ∀ name p, s.run? name = some p → ¬p.run.Started → s.table.game.running = false →
    s.table.game.world.finished = false →
      Play.Account tell (Game.OwnWrite (s.table.game.runId + 1))
        { s.table with game := s.table.game.taken } (s.perform tell (.next name)).2.table
  /-- The first step of a further run is refused, and that run has ended. -/
  busy : ∀ name p, s.run? name = some p → ¬p.run.Started → s.table.game.running = true →
    s.perform tell (.next name) = (.error (.game .busy), s.put name .ended)

/-- A run that has been begun and does not carry the number of the game is over after the
waits that it owes. -/
theorem on_nextPaced_of_lost (htell : tell.CallsBack fit) (h : s.InOrder fit) {p : PacedRun}
    (hp : s.run? name = some p) (hrun : p.run.Started)
    (hlost : ¬p.run.Carries s.table.game.runId) :
    (Play.nextPaced tell p).on s.table =
      (.ok (none, .ended), ((p.paces.forM (Play.await tell)).on s.table).2) := by
  have hwaits : Play.Within fit Game.Disturbed (p.paces.forM (Play.await tell)) :=
    .forM (fun q => .await htell.staysWithin q) p.paces
  obtain ⟨_, t₁, hon, -, hd⟩ := hwaits s.table h.fit
  have hnext : (Play.next tell p.run).on t₁ = (.ok (none, .ended), t₁) := by
    refine Play.on_next_of_lost hrun fun hi => hlost ?_
    -- the number of the game has only gone on
    have hle := (h.fits name p hp).le _ hi
    have hle' := hd.runId_le
    rwa [Nat.le_antisymm hle' hle]
  rw [hon]
  exact Play.on_nextPaced hon hnext

/-- **In a sitting in order, one run alone owns the game.** -/
theorem InOrder.oneOwner (h : s.InOrder fit) (htell : tell.CallsBack fit) : OneOwner tell s where
  running_iff := h.settled.running_iff
  finished := h.settled.finished
  owner hrun := by
    obtain ⟨name, hi⟩ := h.owner hrun
    exact ⟨h.settled.unfinished hrun, name, hi, fun other hi' => h.alone other name _ hi' hi⟩
  lost name id hi hne os := by
    obtain ⟨p, hp, hi'⟩ := hi
    have hle := (h.fits name p hp).le id hi'
    have hle' := (h.performAll htell os).2
    omega
  silent name p hp hrun hlost := by
    refine ⟨_, withRun_of_ok hp (on_nextPaced_of_lost htell h hp hrun hlost), ?_, fun hwait => ?_⟩
    · exact Play.Writes.forM Play.Writes.await p.paces s.table
    · rw [Play.on_forM_await hwait]
  writes name p r hp hr o ho := by
    rcases List.mem_pair.mp ho with rfl | rfl
    · refine (withRun_table hp).symm ▸ Play.Writes.nextPaced ?_ s.table
      rw [hr]
      exact Play.Writes.next_suspended r
    · refine (withRun_table hp).symm ▸ Play.Writes.bind ?_ (fun _ => .pure _) s.table
      rw [hr]
      exact Play.Writes.close_suspended r
  begins name p hp hrun hidle hfin := by
    change Play.Account tell _ _ (s.withRun name _ _).2.table
    rw [withRun_table hp]
    exact Play.Writes.account_nextPaced_of_taken hrun (h.unowed name p hp hrun) hidle hfin
  busy name p hp hrun hbusy :=
    withRun_of_error hp (Play.on_nextPaced_of_busy hrun (h.unowed name p hp hrun) hbusy)

/-- A new game is in order. -/
theorem inOrder_new (htell : tell.CallsBack fit) (rules : Rules) (maze : Maze) {audience : σ}
    (hfit : fit audience) :
    InOrder fit ⟨(Game.new tell rules maze audience).2, []⟩ := by
  have hopening : (Game.unopened rules maze).AtOpening := ⟨rfl, rfl, rfl, rfl⟩
  obtain ⟨_, t, hon, ht, hd⟩ :=
    Play.Within.reset htell ⟨Game.unopened rules maze, audience⟩ hfit
  have hafter : t.game.AtOpening := hd.atOpening hopening
  unfold Game.new
  rw [hon]
  refine ⟨ht, hafter.settled, nofun, nofun, nofun, fun hrun => ?_⟩
  cases hafter.not_running.symm.trans hrun

/-- **At most one run owns the game**, after any operations in any order on any number of
runs, however the listener calls back in the middle of them. -/
theorem oneOwner_performAll (htell : tell.CallsBack fit) (rules : Rules) (maze : Maze)
    {audience : σ} (hfit : fit audience) (os : List Operation) :
    OneOwner tell (performAll tell ⟨(Game.new tell rules maze audience).2, []⟩ os).2 :=
  ((inOrder_new htell rules maze hfit).performAll htell os).1.oneOwner htell

/-- A sitting in which the maze is started over in the middle of the first step of a run,
another run is begun, and a third is refused. -/
def overtaken : Sitting Journal :=
  (performAll Journal.hear
    ⟨(Game.new Journal.hear {} Preset.easy.maze { alarms := [⟨.robot, 2, .reset⟩] }).2, []⟩
    [.openBatch "first" "moveRight(); moveRight();", .openBatch "second" "moveRight(); moveLeft();",
      .openLive "third" "moveRight();", .next "first", .next "second", .next "third"]).2

/-- The first run carries a number that is lost, the second owns the game, and the third has
ended. -/
theorem oneOwner_performAll_overtaken :
    Journal.hear.CallsBack Journal.Fit ∧ Journal.Fit { alarms := [⟨.robot, 2, .reset⟩] } ∧
      overtaken.table.game.running = true ∧ overtaken.table.game.runId = 4 ∧
      (overtaken.run? "first").map (·.run) =
        some (.suspended { mode := .batch, runId := 2, index := 1, moves := [.right] }) ∧
      (overtaken.run? "third").map (·.run) = some .ended ∧
      OneOwner Journal.hear overtaken := by
  have hfit : Journal.Fit { alarms := [⟨.robot, 2, .reset⟩] } := by
    simp [Journal.Fit, Call.CanBeMade]
  refine ⟨Journal.callsBack_hear, hfit, by decide +kernel, by decide +kernel, by decide +kernel,
    by decide +kernel, ?_⟩
  exact oneOwner_performAll Journal.callsBack_hear {} Preset.easy.maze hfit _

end Sitting

end ScriptedMaze
