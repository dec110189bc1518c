import ScriptedMaze.Play.Alarm

/-!
# Listeners that call back

While a notice is heard, the game is in the hands of whoever listens. A listener may
stop the run or start the maze over, also with another maze, and on the way notices
arise again, which are heard in the same way. `Game.Stirred` says what may have become
of the game when all of that is over, and a listener that does no more than this, and
does not fail, is one that **calls back** (`Listener.CallsBack`).

However deep the calls are nested, little can have come of them (`Game.Disturbed`).
Either the game is as it was but for its status, and the run may have been stopped; or
the maze was started over, and then the game has another number and no run owns it.
That is all the proofs about runs need to know of a listener.

A journal with alarms calls back, if its alarms ask for mazes that exist
(`Journal.callsBack_hear`).
-/

namespace ScriptedMaze

/-! ### What is made of a game -/

namespace Game

/-- The game with its maze started over. -/
def restarted (g : Game) : Game :=
  { g with
    runId := g.runId + 1
    cancelled := false
    running := false
    world := g.maze.opening
    phase := .idle
    steps := 0 }

/-- The game after the run in progress was asked to stop. -/
def stopped (g : Game) : Game :=
  if g.running then { g with cancelled := true, running := false, phase := .cancelled }
  else { g with cancelled := true }

/-- **What may become of a game while a notice is heard** by a listener that calls
back, and that is called again by what it calls. -/
inductive Stirred : Game → Game → Prop
  | nothing {g : Game} : Stirred g g
  | trans {g g' g'' : Game} : Stirred g g' → Stirred g' g'' → Stirred g g''
  /-- The run in progress is stopped. -/
  | stop {g : Game} : Stirred g g.stopped
  /-- The maze is started over, be it the same maze or another. Notices arise before,
  while it is shown, and when the player is told. -/
  | restart {g g₁ g₂ g₃ : Game} {m : Maze} {s : Status} : Stirred { g with maze := m } g₁ →
      Stirred g₁.restarted g₂ → Stirred { g₂ with status := s } g₃ → Stirred g g₃

/-- The maze has just been started over, and no run owns the game. -/
structure AtOpening (g : Game) : Prop where
  not_running : g.running = false
  phase : g.phase = .idle
  world : g.world = g.maze.opening
  steps : g.steps = 0

/-- **What is left of a game that was in other hands.** -/
inductive Disturbed (g g' : Game) : Prop
  /-- Nothing but the status has changed. -/
  | kept (s : Status) (h : g' = { g with status := s })
  /-- Besides, the run in progress was stopped. -/
  | stopped (s : Status) (h : g' = { g.stopped with status := s })
  /-- The maze was started over. -/
  | restarted (number : g.runId < g'.runId) (rules : g'.rules = g.rules) (opening : g'.AtOpening)

/-! ### What is left of a game -/

variable {g g' g'' : Game}

@[simp] theorem runId_stopped : g.stopped.runId = g.runId := by
  unfold stopped
  split <;> rfl

@[simp] theorem rules_stopped : g.stopped.rules = g.rules := by
  unfold stopped
  split <;> rfl

@[simp] theorem running_stopped : g.stopped.running = false := by
  unfold stopped
  split
  · rfl
  · rename_i h
    exact eq_false_of_ne_true h

@[simp] theorem cancelled_stopped : g.stopped.cancelled = true := by
  unfold stopped
  split <;> rfl

theorem AtOpening.stopped (h : g.AtOpening) : g.stopped.AtOpening := by
  have heq : g.stopped = { g with cancelled := true } := by simp [Game.stopped, h.not_running]
  rw [heq]
  exact ⟨h.not_running, h.phase, h.world, h.steps⟩

theorem atOpening_restarted (g : Game) : g.restarted.AtOpening :=
  ⟨rfl, rfl, rfl, rfl⟩

/-- Stopping a run that has been stopped changes nothing. -/
theorem stopped_eq_self (h : g.running = false) (h' : g.cancelled = true) : g.stopped = g := by
  obtain ⟨_, _, _, running, cancelled, _, _, _, _⟩ := g
  change running = false at h
  change cancelled = true at h'
  subst h h'
  rfl

theorem stopped_status (s : Status) :
    { g with status := s }.stopped = { g.stopped with status := s } := by
  unfold stopped
  split <;> rfl

namespace Disturbed

theorem refl (g : Game) : Disturbed g g := .kept g.status rfl

theorem status (g : Game) (s : Status) : Disturbed g { g with status := s } := .kept s rfl

theorem runId_le (h : Disturbed g g') : g.runId ≤ g'.runId := by
  cases h with
  | kept s h =>
    subst h
    exact Nat.le_refl _
  | stopped s h =>
    subst h
    exact Nat.le_of_eq runId_stopped.symm
  | restarted number => exact Nat.le_of_lt number

theorem rules (h : Disturbed g g') : g'.rules = g.rules := by
  cases h with
  | kept s h =>
    subst h
    rfl
  | stopped s h =>
    subst h
    exact rules_stopped
  | restarted _ rules => exact rules

/-- A maze that was started over is not touched again but for the status. -/
theorem atOpening (h : Disturbed g g') (hg : g.AtOpening) : g'.AtOpening := by
  cases h with
  | kept s h =>
    subst h
    exact ⟨hg.not_running, hg.phase, hg.world, hg.steps⟩
  | stopped s h =>
    subst h
    have hs := hg.stopped
    exact ⟨hs.not_running, hs.phase, hs.world, hs.steps⟩
  | restarted _ _ opening => exact opening

theorem trans (h : Disturbed g g') (h' : Disturbed g' g'') : Disturbed g g'' := by
  have hle := h'.runId_le
  have hrules := h'.rules
  cases h with
  | kept s h =>
    subst h
    cases h' with
    | kept s' h' => exact .kept s' h'
    | stopped s' h' => exact .stopped s' (by rw [h', stopped_status])
    | restarted number rules opening => exact .restarted number rules opening
  | stopped s h =>
    subst h
    cases h' with
    | kept s' h' => exact .stopped s' h'
    | stopped s' h' =>
      exact .stopped s'
        (by rw [h', stopped_status, stopped_eq_self running_stopped cancelled_stopped])
    | restarted number rules opening =>
      exact .restarted (by simpa using number) (by simpa using rules) opening
  | restarted number rules opening =>
    exact .restarted (Nat.lt_of_lt_of_le number hle) (hrules.trans rules) (h'.atOpening opening)

/-- Where no run owns the game, none owns it afterwards. -/
theorem not_running (h : Disturbed g g') (hg : g.running = false) : g'.running = false := by
  cases h with
  | kept s h =>
    subst h
    exact hg
  | stopped s h =>
    subst h
    exact running_stopped
  | restarted _ _ opening => exact opening.not_running

/-- A run owns the game afterwards only if nothing but the status has changed. -/
theorem eq_of_running (h : Disturbed g g') (hg : g'.running = true) :
    ∃ s, g' = { g with status := s } := by
  cases h with
  | kept s h => exact ⟨s, h⟩
  | stopped s h =>
    subst h
    simp at hg
  | restarted _ _ opening =>
    rw [opening.not_running] at hg
    cases hg

/-- As long as the game has its number, a run that owned it owns it or has been
stopped. -/
theorem live (h : Disturbed g g') (hg : g.running = true ∨ g.cancelled = true)
    (hnumber : g'.runId = g.runId) : g'.running = true ∨ g'.cancelled = true := by
  cases h with
  | kept s h =>
    subst h
    exact hg
  | stopped s h =>
    subst h
    exact Or.inr cancelled_stopped
  | restarted number => exact absurd hnumber (Nat.ne_of_gt number)

end Disturbed

/-- **However deep the calls are nested, little comes of them.** -/
theorem Stirred.disturbed (h : Stirred g g') : Disturbed g g' := by
  induction h with
  | nothing => exact .refl _
  | trans _ _ ih ih' => exact ih.trans ih'
  | stop => exact .stopped _ rfl
  | @restart g g₁ g₂ g₃ m s _ _ _ ih ih' ih'' =>
    have hbefore : g.runId ≤ g₁.runId := ih.runId_le
    have hrules : g₁.rules = g.rules := ih.rules
    -- what comes after the restart leaves it at that
    have hafter : Disturbed g₁.restarted g₃ := (ih'.trans (.status g₂ s)).trans ih''
    refine .restarted ?_ (hafter.rules.trans hrules) (hafter.atOpening (atOpening_restarted g₁))
    exact Nat.lt_of_le_of_lt hbefore hafter.runId_le

end Game

/-! ### Plays that succeed -/

namespace Play

variable {σ α β : Type} {t : Table σ} {act : Play σ α} {next : α → Play σ β}

/-- **The play succeeds**, and of what it gives and leaves `Q` holds. -/
def Succeeds (act : Play σ α) (t : Table σ) (Q : α → Table σ → Prop) : Prop :=
  ∃ a t', act.on t = (.ok a, t') ∧ Q a t'

namespace Succeeds

variable {P Q : α → Table σ → Prop} {R : β → Table σ → Prop}

theorem of_on {a : α} {t' : Table σ} (h : act.on t = (.ok a, t')) (hq : Q a t') :
    Succeeds act t Q :=
  ⟨a, t', h, hq⟩

theorem of_eq {act' : Play σ α} {t' : Table σ} (h : act.on t = act'.on t')
    (h' : Succeeds act' t' Q) : Succeeds act t Q := by
  obtain ⟨a, t'', hon, hq⟩ := h'
  exact ⟨a, t'', h.trans hon, hq⟩

theorem pure {a : α} (h : Q a t) : Succeeds (pure a) t Q :=
  ⟨a, t, rfl, h⟩

theorem mono (h : Succeeds act t P) (hpq : ∀ a t', P a t' → Q a t') : Succeeds act t Q := by
  obtain ⟨a, t', hon, hp⟩ := h
  exact ⟨a, t', hon, hpq a t' hp⟩

theorem bind (h : Succeeds act t P) (hnext : ∀ a t', P a t' → Succeeds (next a) t' R) :
    Succeeds (act >>= next) t R := by
  obtain ⟨a, t', hon, hp⟩ := h
  obtain ⟨b, t'', hon', hr⟩ := hnext a t' hp
  refine ⟨b, t'', ?_, hr⟩
  rw [on_bind, hon]
  exact hon'

theorem game {next : Game → Play σ β} (h : Succeeds (next t.game) t R) :
    Succeeds (Play.game >>= next) t R :=
  bind (P := fun g t' => g = t.game ∧ t' = t) ⟨t.game, t, rfl, rfl, rfl⟩
    (by rintro _ _ ⟨rfl, rfl⟩; exact h)

theorem audience {next : σ → Play σ β} (h : Succeeds (next t.audience) t R) :
    Succeeds (Play.audience >>= next) t R :=
  bind (P := fun s t' => s = t.audience ∧ t' = t) ⟨t.audience, t, rfl, rfl, rfl⟩
    (by rintro _ _ ⟨rfl, rfl⟩; exact h)

theorem modifyGame {f : Game → Game} {next : Unit → Play σ β}
    (h : Succeeds (next ()) { t with game := f t.game } R) :
    Succeeds (Play.modifyGame f >>= next) t R :=
  bind (P := fun _ t' => t' = { t with game := f t.game }) ⟨(), _, rfl, rfl⟩
    (by rintro _ _ rfl; exact h)

theorem modifyAudience {f : σ → σ} {next : Unit → Play σ β}
    (h : Succeeds (next ()) { t with audience := f t.audience } R) :
    Succeeds (Play.modifyAudience f >>= next) t R :=
  bind (P := fun _ t' => t' = { t with audience := f t.audience }) ⟨(), _, rfl, rfl⟩
    (by rintro _ _ rfl; exact h)

end Succeeds

end Play

/-! ### Listeners -/

variable {σ : Type}

/-- **A listener calls back**: as long as the audience is fit, it does not fail, and
what it does to the game is what a listener may do. -/
def Listener.CallsBack (tell : Listener σ) (fit : σ → Prop) : Prop :=
  ∀ n t, fit t.audience → Play.Succeeds (tell n) t fun _ t' =>
    fit t'.audience ∧ Game.Stirred t.game t'.game

namespace Play

variable {α β : Type} {tell : Listener σ} {fit : σ → Prop}

theorem succeeds_report (h : tell.CallsBack fit) {t : Table σ} (ht : fit t.audience)
    (text : String) (severity : Severity) :
    Succeeds (report tell text severity) t fun _ t' => fit t'.audience ∧
      Game.Stirred { t.game with status := ⟨text, severity⟩ } t'.game :=
  .modifyGame (h _ { t with game := { t.game with status := ⟨text, severity⟩ } } ht)

/-- **A play leaves the game in other hands**: it succeeds, and does to the game what a
listener may do, or less. -/
def Stirs (fit : σ → Prop) (act : Play σ α) : Prop :=
  ∀ t, fit t.audience → Succeeds act t fun _ t' => fit t'.audience ∧ Game.Stirred t.game t'.game

namespace Stirs

theorem pure (a : α) : Stirs fit (pure a : Play σ α) :=
  fun _ h => .pure ⟨h, .nothing⟩

theorem bind {act : Play σ α} {next : α → Play σ β} (h : Stirs fit act)
    (hnext : ∀ a, Stirs fit (next a)) : Stirs fit (act >>= next) := by
  intro t ht
  refine (h t ht).bind fun a t' ht' => (hnext a t' ht'.1).mono fun b t'' ht'' => ?_
  exact ⟨ht''.1, ht'.2.trans ht''.2⟩

theorem game {next : Game → Play σ β} (h : ∀ g, Stirs fit (next g)) :
    Stirs fit (Play.game >>= next) :=
  fun t ht => .game (h t.game t ht)

theorem forM {act : α → Play σ Unit} (h : ∀ a, Stirs fit (act a)) (as : List α) :
    Stirs fit (as.forM act) := by
  induction as with
  | nil => exact .pure ()
  | cons a as ih => exact (h a).bind fun _ => ih

theorem cancel : Stirs fit (Play.cancel : Play σ Unit) :=
  fun _ h => .of_on (on_modifyGame _ _) ⟨h, .stop⟩

theorem drawAll (h : tell.CallsBack fit) : Stirs fit (Play.drawAll tell) := by
  refine .game fun g => .bind (.forM (fun y => ?_) _) fun _ => .game fun g' => h _
  exact .game fun g' => .forM (fun x => h _) _

/-- The maze is started over, be it the same maze or another. -/
theorem reset (h : tell.CallsBack fit) (m : Maze) :
    Stirs fit (Play.modifyGame (fun g => { g with maze := m }) >>= fun _ => Play.reset tell) := by
  intro t ht
  refine .modifyGame ?_
  unfold Play.reset
  refine (h _ { t with game := { t.game with maze := m } } ht).bind fun _ t₁ h₁ => .modifyGame ?_
  refine (drawAll h { t₁ with game := t₁.game.restarted } h₁.1).bind fun _ t₂ h₂ => .game ?_
  refine (succeeds_report h h₂.1 _ _).mono fun _ t₃ h₃ => ⟨h₃.1, ?_⟩
  exact .restart h₁.2 h₂.2 h₃.2

theorem setDifficulty (h : tell.CallsBack fit) {name : String} {m : Maze}
    (hm : Maze.named name = .ok m) : Stirs fit (Play.setDifficulty tell name) := by
  unfold Play.setDifficulty
  rw [hm]
  have hbind := (reset h m).bind fun _ => h (.debug ("Difficulty switched to: " ++ name))
  intro t ht
  exact hbind t ht

end Stirs

end Play

/-! ### Journals -/

/-- **A call can be made**: the maze that it asks for exists. -/
def Call.CanBeMade : Call → Prop
  | setDifficulty name => ∃ m, Maze.named name = .ok m
  | _ => True

namespace Journal

open Play

variable {tell : Listener Journal} {j : Journal}

/-- The calls of all alarms can be made. -/
def Fit (j : Journal) : Prop := ∀ a ∈ j.alarms, a.call.CanBeMade

theorem Fit.countDown (h : j.Fit) (i : Nat) (channel : Channel) :
    (j.countDown i channel).1.Fit ∧ ∀ call ∈ (j.countDown i channel).2, call.CanBeMade := by
  unfold Journal.countDown
  split
  · exact ⟨h, by simp⟩
  · rename_i a ha
    have hcall := h a (List.mem_of_getElem? ha)
    split
    · refine ⟨fun b hb => ?_, ?_⟩
      · rcases List.mem_or_eq_of_mem_set hb with hb | rfl
        · exact h b hb
        · exact hcall
      · dsimp only
        split
        · simpa using hcall
        · simp
    · exact ⟨h, by simp⟩

theorem stirs_make (h : tell.CallsBack Fit) {call : Call} (hcall : call.CanBeMade) :
    Stirs Fit (call.make tell) := by
  cases call with
  | cancel => exact .cancel
  | reset => exact fun t ht => Stirs.reset h t.game.maze t ht
  | setDifficulty name =>
    obtain ⟨m, hm⟩ := hcall
    exact .setDifficulty h hm

theorem stirs_tick (h : tell.CallsBack Fit) (channel : Channel) (i : Nat) :
    Stirs Fit (tick tell channel i) := by
  intro t ht
  obtain ⟨hfit, hcall⟩ := ht.countDown i channel
  refine .audience ?_
  generalize t.audience.countDown i channel = p at hfit hcall
  obtain ⟨j, call?⟩ := p
  refine .modifyAudience ?_
  cases call? with
  | none => exact .pure ⟨hfit, .nothing⟩
  | some call =>
    exact .modifyAudience (stirs_make h (hcall call rfl) { t with audience := j.write _ } hfit)

theorem callsBack_hearAt (depth : Nat) : (hearAt depth).CallsBack Fit := by
  induction depth with
  | zero => exact fun n t ht => .of_on (on_modifyAudience _ _) ⟨ht, .nothing⟩
  | succ depth ih =>
    intro n t ht
    refine .modifyAudience ?_
    cases n.channel? with
    | none => exact .pure ⟨ht, .nothing⟩
    | some channel =>
      exact .audience (Stirs.forM (fun i => stirs_tick ih channel i) _
        { t with audience := t.audience.write _ } ht)

/-- **A journal calls back**, as long as its alarms ask for mazes that exist. -/
theorem callsBack_hear : hear.CallsBack Fit :=
  fun n t ht => .audience (callsBack_hearAt t.audience.armed n t ht)

end Journal

end ScriptedMaze
