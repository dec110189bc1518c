import ScriptedMaze.Proofs.Play.Writes

/-!
# Listeners that fail

A listener may fail as well, and its failure goes through whatever was being done, to the
one who asked for it. What was done before is kept. So a step of a run may end at every
notice that it gives.

All that is known of such a listener is that it takes the game for no run
(`Listener.MayFail`): the number of the game may go on while a notice is heard, and a run
may lose the game, but none gets hold of it (`Game.Untaken`). The same is then true of all
plays that write no more than that (`Play.Writes.takesNone`), whether they fail or not.

Of a play that may fail there are two things to say: what holds if it comes to something, and
what holds if it does not, of the table (`Play.Goes`) or of the game alone (`Play.Comes`).
For a step of a run under a number this is `Play.StepUnder`. Either the run goes on, or it
has ended and the game is free of its number; and if the step fails, the run gives the game
back, as every step is made under the care of the run (`Play.guarded`).
-/

namespace ScriptedMaze

/-! ### Games that no run has taken -/

namespace Game

/-- **No run has taken the game meanwhile**: a run that owns it owned it before, under the
same number. -/
structure Untaken (g g' : Game) : Prop where
  number : g.runId ≤ g'.runId
  rules : g'.rules = g.rules
  owner : g'.running = true → g.running = true ∧ g'.runId = g.runId

instance : IsPreorder Game Untaken where
  refl _ := ⟨Nat.le_refl _, rfl, fun h => ⟨h, rfl⟩⟩
  trans _ _ _ h h' := by
    refine ⟨Nat.le_trans h.number h'.number, h'.rules.trans h.rules, fun hrun => ?_⟩
    obtain ⟨hrun', hsame'⟩ := h'.owner hrun
    obtain ⟨hrun'', hsame⟩ := h.owner hrun'
    exact ⟨hrun'', hsame'.trans hsame⟩

/-- **The game is free of a number**: it carries another, or no run owns it. -/
def FreeOf (id : Nat) (g : Game) : Prop :=
  g.runId = id → g.running = false

variable {g g' : Game} {id : Nat} {p : Phase}

/-- A game in which no run has been let in. -/
theorem Untaken.of_eq (hid : g'.runId = g.runId) (hrules : g'.rules = g.rules)
    (hrun : g'.running = true → g.running = true) : Untaken g g' :=
  ⟨Nat.le_of_eq hid.symm, hrules, fun h => ⟨hrun h, hid⟩⟩

theorem untaken_status (g : Game) (s : Status) : Untaken g { g with status := s } :=
  .of_eq rfl rfl id

theorem untaken_moved (d : Direction) (g : Game) : Untaken g (g.moved d) :=
  .of_eq rfl rfl id

theorem untaken_handedBack (id : Nat) (p : Phase) (g : Game) : Untaken g (g.handedBack id p) := by
  unfold handedBack
  split
  · exact .of_eq rfl rfl nofun
  · exact refl_of Untaken g

theorem untaken_released (id : Nat) (g : Game) : Untaken g (g.released id) := by
  rw [released_eq]
  split
  · exact untaken_handedBack id .cancelled g
  · exact refl_of Untaken g

theorem untaken_stopped (g : Game) : Untaken g g.stopped :=
  .of_eq runId_stopped rules_stopped (by simp)

theorem untaken_restarted (g : Game) : Untaken g g.restarted :=
  ⟨Nat.le_succ _, rfl, nofun⟩

theorem freeOf_of_ne (h : g.runId ≠ id) : g.FreeOf id :=
  fun hid => absurd hid h

theorem freeOf_handedBack (id : Nat) (p : Phase) (g : Game) : (g.handedBack id p).FreeOf id := by
  intro hid
  rw [runId_handedBack] at hid
  rw [handedBack_of_eq hid]

theorem freeOf_released (id : Nat) (g : Game) : (g.released id).FreeOf id := by
  rw [released_eq]
  split
  · exact freeOf_handedBack id .cancelled g
  · rename_i hrun
    exact fun _ => eq_false_of_ne_true hrun

/-- What is free of a number stays so, as long as no run takes it. -/
theorem FreeOf.untaken (h : g.FreeOf id) (hg : g.Untaken g') : g'.FreeOf id := by
  refine fun hid => eq_false_of_ne_true fun hrun => ?_
  obtain ⟨hrun', hsame⟩ := hg.owner hrun
  cases hrun'.symm.trans (h (hsame.symm.trans hid))

end Game

/-- **A listener that may fail**, and that takes the game for no run. There is nobody who
listens to a wait. -/
structure Listener.MayFail {σ : Type} (tell : Listener σ) : Prop where
  untaken : ∀ n (t : Table σ), t.game.Untaken ((tell n).on t).2.game
  pause : ∀ x t, ∃ audience, (tell (.pause x)).on t = (.ok (), { t with audience })

/-! ### Whatever comes of a play -/

namespace Play

open Game

variable {σ α β : Type} {tell : Listener σ} {t : Table σ} {g : Game} {id : Nat}

/-- **However a play goes**: `Q` holds of what it gives and of the table that it leaves, or it
fails and `E` holds of the table that it leaves. -/
def Goes (act : Play σ α) (t : Table σ) (Q : α → Table σ → Prop) (E : Table σ → Prop) : Prop :=
  match act.on t with
  | (.ok a, t') => Q a t'
  | (.error _, t') => E t'

namespace Goes

variable {act : Play σ α} {next : α → Play σ β} {P Q : α → Table σ → Prop}
  {R : β → Table σ → Prop} {E F : Table σ → Prop}

theorem of_on {a : α} {t' : Table σ} (h : act.on t = (.ok a, t')) (hq : Q a t') :
    Goes act t Q E := by
  unfold Goes
  rw [h]
  exact hq

theorem of_error {f : GameFault} {t' : Table σ} (h : act.on t = (.error f, t')) (he : E t') :
    Goes act t Q E := by
  unfold Goes
  rw [h]
  exact he

theorem of_eq {act' : Play σ α} {t' : Table σ} (h : act.on t = act'.on t')
    (h' : Goes act' t' Q E) : Goes act t Q E := by
  unfold Goes
  rw [h]
  exact h'

/-- It may not matter whether the play fails. -/
theorem of_always (h : ∀ a, Q a (act.on t).2) (he : E (act.on t).2) : Goes act t Q E := by
  unfold Goes
  generalize act.on t = p at h he ⊢
  obtain ⟨_ | a, t'⟩ := p
  · exact he
  · exact h a

theorem pure {a : α} (h : Q a t) : Goes (pure a) t Q E :=
  h

theorem mono (h : Goes act t P E) (hq : ∀ a t', P a t' → Q a t') (he : ∀ t', E t' → F t') :
    Goes act t Q F := by
  unfold Goes at h ⊢
  generalize act.on t = p at h ⊢
  obtain ⟨_ | a, t'⟩ := p
  · exact he t' h
  · exact hq a t' h

theorem imp (h : Goes act t P E) (hq : ∀ a t', P a t' → Q a t') : Goes act t Q E :=
  h.mono hq fun _ he => he

theorem bind (h : Goes act t P E) (hnext : ∀ a t', P a t' → Goes (next a) t' R E) :
    Goes (act >>= next) t R E := by
  unfold Goes at h ⊢
  rw [on_bind]
  generalize act.on t = p at h ⊢
  obtain ⟨_ | a, t'⟩ := p
  · exact h
  · exact hnext a t' h

theorem game {next : Game → Play σ β} (h : Goes (next t.game) t R E) :
    Goes (Play.game >>= next) t R E :=
  h

theorem modifyGame {f : Game → Game} {next : Unit → Play σ β}
    (h : Goes (next ()) { t with game := f t.game } R E) :
    Goes (Play.modifyGame f >>= next) t R E :=
  h

/-- What fails under the care of a run gives the game back. -/
theorem guarded (h : Goes act t Q E)
    (hfail : ∀ t', E t' → F { t' with game := t'.game.released id }) :
    Goes (guarded id act) t Q F := by
  unfold Goes at h ⊢
  rw [Play.guarded, on_tryCatch]
  generalize act.on t = p at h ⊢
  obtain ⟨f | a, t'⟩ := p
  · exact hfail t' h
  · exact h

end Goes

/-- **Whatever comes of the play**: `Q` holds of what it gives and of the game that it
leaves; or it fails, and `E` holds of the game that it leaves. -/
def Comes (act : Play σ α) (t : Table σ) (Q : α → Game → Prop) (E : Game → Prop) : Prop :=
  match act.on t with
  | (.ok a, t') => Q a t'.game
  | (.error _, t') => E t'.game

namespace Comes

variable {act : Play σ α} {next : α → Play σ β} {P Q : α → Game → Prop} {R : β → Game → Prop}
  {E F : Game → Prop}

/-- The audience is left out of account. -/
theorem iff_goes : Comes act t Q E ↔
    Goes act t (fun a t' => Q a t'.game) fun t' => E t'.game :=
  .rfl

theorem of_ok {a : α} {t' : Table σ} (h : act.on t = (.ok a, t')) (hq : Q a t'.game) :
    Comes act t Q E :=
  iff_goes.mpr (.of_on h hq)

theorem of_error {f : GameFault} {t' : Table σ} (h : act.on t = (.error f, t'))
    (he : E t'.game) : Comes act t Q E :=
  iff_goes.mpr (.of_error h he)

theorem of_eq {act' : Play σ α} {t' : Table σ} (h : act.on t = act'.on t')
    (h' : Comes act' t' Q E) : Comes act t Q E :=
  iff_goes.mpr (.of_eq h (iff_goes.mp h'))

theorem pure {a : α} (h : Q a t.game) : Comes (pure a) t Q E :=
  h

theorem mono (h : Comes act t P E) (hq : ∀ a g, P a g → Q a g) (he : ∀ g, E g → F g) :
    Comes act t Q F :=
  iff_goes.mpr ((iff_goes.mp h).mono (fun a _ => hq a _) fun _ => he _)

theorem imp (h : Comes act t P E) (hq : ∀ a g, P a g → Q a g) : Comes act t Q E :=
  h.mono hq fun _ he => he

theorem bind (h : Comes act t P E) (hnext : ∀ a t', P a t'.game → Comes (next a) t' R E) :
    Comes (act >>= next) t R E :=
  iff_goes.mpr ((iff_goes.mp h).bind fun a t' ha => iff_goes.mp (hnext a t' ha))

theorem game {next : Game → Play σ β} (h : Comes (next t.game) t R E) :
    Comes (Play.game >>= next) t R E :=
  h

theorem modifyGame {f : Game → Game} {next : Unit → Play σ β}
    (h : Comes (next ()) { t with game := f t.game } R E) :
    Comes (Play.modifyGame f >>= next) t R E :=
  h

/-- What fails under the care of a run gives the game back. -/
theorem guarded (h : Comes act t Q E) (hfail : ∀ g, E g → F (g.released id)) :
    Comes (guarded id act) t Q F :=
  iff_goes.mpr ((iff_goes.mp h).guarded fun _ => hfail _)

end Comes

/-- **A play that takes the game for no run**, whether it fails or not. -/
def TakesNone (act : Play σ α) : Prop :=
  ∀ t : Table σ, t.game.Untaken (act.on t).2.game

namespace TakesNone

theorem bind {act : Play σ α} {next : α → Play σ β} (h : TakesNone act)
    (hnext : ∀ a, TakesNone (next a)) : TakesNone (act >>= next) := by
  intro t
  have hact := h t
  rw [on_bind]
  generalize act.on t = p at hact ⊢
  obtain ⟨_ | a, t'⟩ := p
  · exact hact
  · exact trans_of Untaken hact (hnext a t')

theorem forM {act : α → Play σ Unit} (h : ∀ a, TakesNone (act a)) (as : List α) :
    TakesNone (as.forM act) := by
  induction as with
  | nil => exact fun t => refl_of Untaken t.game
  | cons a as ih => exact (h a).bind fun _ => ih

theorem modifyAudience (f : σ → σ) : TakesNone (Play.modifyAudience f : Play σ Unit) :=
  fun t => refl_of Untaken t.game

theorem audience : TakesNone (Play.audience : Play σ σ) :=
  fun t => refl_of Untaken t.game

theorem comes {act : Play σ α} (h : TakesNone act) (hg : g.Untaken t.game) :
    Comes act t (fun _ g' => g.Untaken g') g.Untaken := by
  have hall := trans_of Untaken hg (h t)
  unfold Comes
  generalize act.on t = p at hall ⊢
  obtain ⟨_ | a, t'⟩ := p <;> exact hall

end TakesNone

/-- Where nothing but listeners can have changed the game, no run has taken it. -/
theorem Account.untaken (htell : tell.MayFail) {t t' : Table σ} (h : Account tell Untaken t t') :
    t.game.Untaken t'.game := by
  induction h with
  | nothing => exact refl_of Untaken _
  | wrote hw _ ih => exact trans_of Untaken hw ih
  | heard n _ ih => exact trans_of Untaken (htell.untaken n _) ih

namespace Writes

variable {act : Play σ α}

theorem takesNone (h : Writes tell Untaken act) (htell : tell.MayFail) : TakesNone act :=
  fun t => (h t).untaken htell

theorem comes (h : Writes tell Untaken act) (htell : tell.MayFail) (hg : g.Untaken t.game) :
    Comes act t (fun _ g' => g.Untaken g') g.Untaken :=
  (h.takesNone htell).comes hg

/-- What is free of a number before a play that takes the game for no run, is free of it
afterwards. -/
theorem comes_freeOf (h : Writes tell Untaken act) (htell : tell.MayFail)
    (hg : g.Untaken t.game) (hfree : t.game.FreeOf id) :
    Comes act t (fun _ g' => g.Untaken g' ∧ g'.FreeOf id) g.Untaken :=
  (h.comes htell (refl_of Untaken t.game)).mono
    (fun _ _ h' => ⟨trans_of Untaken hg h', hfree.untaken h'⟩) fun _ h' => trans_of Untaken hg h'

theorem untaken_perform (a : Action) : Writes tell Untaken (perform tell a) := by
  unfold perform
  split
  · exact conclude _ _ _
  · rename_i d _
    refine game.bind fun g => ?_
    split
    · exact conclude _ _ _
    · intro t
      rw [on_makeMove]
      exact .wrote (untaken_moved d t.game) (tellMove untaken_status d _ _ _ _)

theorem untaken_step (a : Action) : Writes tell Untaken (step tell a) := by
  refine game.bind fun g => ?_
  dsimp only
  split
  · exact throw _
  · exact untaken_perform a

theorem untaken_cancel : Writes tell Untaken (cancel : Play σ Unit) :=
  modifyGame untaken_stopped

theorem untaken_reset : Writes tell Untaken (reset tell) := by
  refine (notice _).bind fun _ => (modifyGame untaken_restarted).bind fun _ => ?_
  exact drawAll.bind fun _ => game.bind fun g => report untaken_status _ _

theorem untaken_setDifficulty (name : String) : Writes tell Untaken (setDifficulty tell name) := by
  unfold setDifficulty
  split
  · exact throw _
  · exact (modifyGame fun g => .of_eq rfl rfl id).bind fun _ =>
      untaken_reset.bind fun _ => notice _

end Writes

/-! ### The steps of a run -/

/-- **What a step of a run under a number has come to**, if it has not failed. No run has
taken the game; and the run goes on under its number, or it has ended and the game is free
of it. -/
structure StepUnder (id : Nat) (limits : Script.Limits) (bound : Nat) (g : Game)
    (q : Option Report × Run) (g' : Game) : Prop where
  untaken : g.Untaken g'
  released : q.2.Carries id ∨ q.2 = .ended ∧ g'.FreeOf id
  ended : q.1 = none → q.2 = .ended
  fewer : q.1.isSome = true → q.2.movesLeft limits < bound

theorem StepUnder.mono {limits : Script.Limits} {bound bound' : Nat} {q : Option Report × Run}
    {g' : Game} (h : StepUnder id limits bound g q g') (hle : bound ≤ bound') :
    StepUnder id limits bound' g q g' :=
  ⟨h.untaken, h.released, h.ended, fun hq => Nat.lt_of_lt_of_le (h.fewer hq) hle⟩

section Steps

variable {r : Replay} {limits : Script.Limits} {bound : Nat}

/-- A run that has freed the game ends its step. -/
theorem Comes.ended {act : Play σ α} {res : Option Report}
    (h : Comes act t (fun _ g' => g.Untaken g' ∧ g'.FreeOf id) g.Untaken)
    (hbound : res.isSome = true → 0 < bound) :
    Comes (act >>= fun _ => Pure.pure (res, Run.ended)) t (StepUnder id limits bound g)
      g.Untaken :=
  h.bind fun _ _ h' => .pure ⟨h'.1, .inr ⟨rfl, h'.2⟩, fun _ => rfl, hbound⟩

/-- A run whose number the game has lost ends its step. -/
theorem Comes.of_lost {act : Play σ (Option Report × Run)} (hg : g.Untaken t.game)
    (hid : t.game.runId ≠ id) (h : act.on t = (.ok (none, .ended), t)) :
    Comes act t (StepUnder id limits bound g) g.Untaken :=
  .of_ok h ⟨hg, .inr ⟨rfl, freeOf_of_ne hid⟩, fun _ => rfl, nofun⟩

theorem comes_stop (htell : tell.MayFail) (r : Replay) (hg : g.Untaken t.game) :
    Comes (stop tell r) t (fun _ g' => g.Untaken g' ∧ g'.FreeOf r.runId) g.Untaken :=
  .of_eq (on_stop tell r t) <|
    (Writes.tellStopped untaken_status r.mode).comes_freeOf htell
      (t := { t with game := t.game.handedBack r.runId .cancelled })
      (trans_of Untaken hg (untaken_handedBack _ _ _)) (freeOf_handedBack _ _ _)

theorem comes_complete (htell : tell.MayFail) (r : Replay) (hg : g.Untaken t.game) :
    Comes (complete tell r) t (fun _ g' => g.Untaken g' ∧ g'.FreeOf r.runId) g.Untaken := by
  by_cases hid : t.game.runId = r.runId
  · cases hc : t.game.cancelled with
    | true => exact .of_eq (on_complete_of_cancelled hid hc) (comes_stop htell r hg)
    | false =>
      exact .of_eq (on_complete hid hc) <|
        (Writes.tellDone untaken_status r.mode).comes_freeOf htell
          (t := { t with game := t.game.handedBack r.runId .completed })
          (trans_of Untaken hg (untaken_handedBack _ _ _)) (freeOf_handedBack _ _ _)
  · exact .of_ok (on_complete_of_ne hid) ⟨hg, freeOf_of_ne hid⟩

/-- The run hands the game back before it tells of a move that ended it. -/
theorem comes_afterMove (htell : tell.MayFail) (hg : g.Untaken t.game) (d : Direction)
    (rest : List Direction) (res : Report) :
    Comes (afterMove tell r d rest res) t
      (StepUnder r.runId limits (rest.length + movesOfLines limits r.lines + 1) g) g.Untaken := by
  have hbound := Nat.succ_pos (rest.length + movesOfLines limits r.lines)
  have hback (p : Phase) : Comes (finish r.runId p) t
      (fun _ g' => g.Untaken g' ∧ g'.FreeOf r.runId) g.Untaken :=
    .of_ok (on_finish _ _ _)
      ⟨trans_of Untaken hg (untaken_handedBack _ _ _), freeOf_handedBack _ _ _⟩
  unfold afterMove
  dsimp only
  split
  · refine (hback .blocked).bind fun _ t' h' => ?_
    have htold := (Writes.tellBlocked untaken_status r d).comes_freeOf htell h'.1 h'.2
    exact htold.ended fun _ => hbound
  · split
    · exact (hback .finished).ended fun _ => hbound
    · exact .pure ⟨hg, .inl ⟨_, rfl, rfl⟩, nofun, fun _ => Nat.lt_succ_self _⟩

theorem comes_advance (htell : tell.MayFail) (hg : g.Untaken t.game) (d : Direction)
    (rest : List Direction) :
    Comes (advance tell r d rest) t
      (StepUnder r.runId limits (rest.length + movesOfLines limits r.lines + 1) g) g.Untaken := by
  by_cases hid : t.game.runId = r.runId
  · cases hc : t.game.cancelled with
    | true =>
      exact .of_eq (on_advance_of_cancelled hid hc) ((comes_stop htell r hg).ended nofun)
    | false =>
      refine .of_eq (on_advance hid hc) ?_
      exact ((Writes.untaken_perform _).comes htell hg).bind fun res t' h' =>
        comes_afterMove htell h' d rest res
  · exact .of_lost hg hid (on_advance_of_ne hid)

theorem comes_readLine (htell : tell.MayFail) (hg : g.Untaken t.game) (n : Nat) (line : String) :
    Comes (readLine tell n line) t
      (fun ds? g' => ds? = (Script.lineCommands g.rules.limits line).toOption ∧ g.Untaken g')
      g.Untaken := by
  have htold {α : Type} {act : Play σ α} {t : Table σ} (h : Writes tell Untaken act)
      (hg : g.Untaken t.game) := h.comes htell hg
  refine .game ?_
  rw [hg.rules]
  split
  · rename_i f hf
    rw [hf]
    refine (htold (.report untaken_status _ _) hg).bind fun _ t₁ h₁ => ?_
    exact (htold (.notice _) h₁).bind fun _ t₂ h₂ => .pure ⟨rfl, h₂⟩
  · rename_i ds hds
    rw [hds]
    dsimp only
    split
    · exact (htold (.report untaken_status _ _) hg).bind fun _ _ h₁ => .pure ⟨rfl, h₁⟩
    · split
      · exact (htold (.notice _) hg).bind fun _ _ h₁ => .pure ⟨rfl, h₁⟩
      · exact .pure ⟨rfl, hg⟩

theorem comes_nextLine (htell : tell.MayFail) (hg : g.Untaken t.game)
    (lines : List (Nat × String)) :
    Comes (nextLine tell r lines) t
      (StepUnder r.runId g.rules.limits (movesOfLines g.rules.limits lines) g) g.Untaken := by
  induction lines generalizing t with
  | nil => exact (comes_complete htell r hg).ended nofun
  | cons numbered lines ih =>
    obtain ⟨n, line⟩ := numbered
    rw [movesOfLines_cons]
    cases hc : t.game.cancelled with
    | true =>
      exact .of_eq (on_nextLine_of_cancelled hc) ((comes_complete htell r hg).ended nofun)
    | false =>
      refine .of_eq (on_nextLine hc) ((comes_readLine htell hg n line).bind ?_)
      rintro ds? t' ⟨hds, h'⟩
      rw [← hds]
      match ds? with
      | none => exact (ih h').imp fun q _ hq => hq.mono (Nat.le_add_left _ _)
      | some [] =>
        by_cases hid : t'.game.runId = r.runId
        · refine .of_eq (on_afterLine_nil hid) ?_
          exact (ih h').imp fun q _ hq => hq.mono (Nat.le_add_left _ _)
        · exact .of_lost h' hid (on_afterLine_nil_of_ne hid)
      | some (d :: rest) =>
        refine (comes_advance (r := { r with line := some n, lines }) htell h' d rest).imp
          fun q _ hq => hq.mono ?_
        rw [Option.getD_some, List.length_cons]
        dsimp only
        omega

theorem comes_resume (htell : tell.MayFail) (hg : g.Untaken t.game) :
    Comes (resume tell r) t
      (StepUnder r.runId g.rules.limits (r.moves.length + movesOfLines g.rules.limits r.lines) g)
      g.Untaken := by
  cases hm : r.moves with
  | cons d rest =>
    rw [resume_of_cons hm]
    refine (comes_advance htell hg d rest).imp fun q _ hq => hq.mono ?_
    rw [List.length_cons]
    omega
  | nil =>
    by_cases hid : t.game.runId = r.runId
    · refine .of_eq (on_resume_of_nil hm hid) ?_
      exact (comes_nextLine htell hg r.lines).imp fun q _ hq => hq.mono (Nat.le_add_left _ _)
    · exact .of_lost hg hid (on_resume_of_ne hid)

/-- The first step of a run. -/
theorem comes_onset (htell : tell.MayFail) (hg : g.Untaken t.game) {run : Run}
    (hrun : ¬run.Started) :
    Comes (onset tell id run) t
      (StepUnder id g.rules.limits (run.movesLeft g.rules.limits) g) g.Untaken := by
  cases run with
  | batch ds => exact comes_resume (r := { mode := .batch, runId := id, moves := ds }) htell hg
  | live source =>
    exact comes_nextLine
      (r := { mode := .live, runId := id, lines := numberedLines source }) htell hg _
  | suspended r => exact absurd trivial hrun
  | ended => exact absurd trivial hrun

end Steps

end Play

/-! ### Journals -/

namespace Journal

open Play

variable {tell : Listener Journal}

theorem takesNone_tick (h : tell.MayFail) (channel : Channel) (i : Nat) :
    TakesNone (tick tell channel i) := by
  refine TakesNone.audience.bind fun j => ?_
  refine (TakesNone.modifyAudience _).bind fun _ => ?_
  split
  · exact fun t => refl_of Game.Untaken t.game
  · rename_i call _
    refine (TakesNone.modifyAudience _).bind fun _ => ?_
    cases call with
    | cancel => exact Writes.untaken_cancel.takesNone h
    | reset => exact Writes.untaken_reset.takesNone h
    | setDifficulty name => exact (Writes.untaken_setDifficulty name).takesNone h

theorem mayFail_hearAt (depth : Nat) : (hearAt depth).MayFail := by
  induction depth with
  | zero => exact ⟨fun _ => TakesNone.modifyAudience _, fun _ t => ⟨_, rfl⟩⟩
  | succ depth ih =>
    refine ⟨fun n => (TakesNone.modifyAudience _).bind fun _ => ?_, fun _ t => ⟨_, rfl⟩⟩
    split
    · exact fun t => refl_of Game.Untaken t.game
    · exact TakesNone.audience.bind fun j => .forM (fun i => takesNone_tick ih _ i) _

/-- **A journal may fail**, whatever its alarms ask for. -/
theorem mayFail_hear : hear.MayFail where
  untaken n := TakesNone.audience.bind fun j => fun t => (mayFail_hearAt j.armed).untaken n t
  pause x t := (mayFail_hearAt t.audience.armed).pause x t

end Journal

end ScriptedMaze
