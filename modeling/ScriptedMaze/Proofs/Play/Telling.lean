import Mathlib.Order.Defs.Unbundled
import ScriptedMaze.Proofs.Play.Calls
import ScriptedMaze.Proofs.Play.Parts

/-!
# Plays that only tell

Most of what a run does is to tell something. What becomes of the game on the way is up to
whoever listens, so that it is enough to know of the listener within what bounds it stays:
a relation between games, reflexive and transitive, that allows a change of the status
(`Listener.StaysWithin`). Every play that only tells stays within the same bounds
(`Play.Within`).

There are two such bounds. A listener that calls back stays within `Game.Disturbed`
(`Listener.CallsBack.staysWithin`). One that never calls back changes nothing at all
(`Listener.Passive`), and stays within `Game.SameButStatus`.

A move is written first and told afterwards, and the report on it is made last. So the
report shows the game as those who listened have left it (`Play.succeeds_makeMove`).
-/

namespace ScriptedMaze

/-! ### Reports on moves -/

/-- What the cell that was entered at a point has let happen. -/
def Effect.events (p : Point) : Effect → List Event
  | .none => []
  | .keyCollected => [.key p]
  | .doorOpened => [.door p]
  | .flagReached => [.flag p]

namespace Outcome

/-- What a report says of a move. -/
def verdict : Outcome → Verdict
  | .blocked => .blocked
  | .moved effect => .moved effect

/-- What happened in a move from one world to another. -/
def events (d : Direction) (before after : World) : Outcome → List Event
  | .blocked => [.blocked d before.robot (before.target d)]
  | .moved effect => .move d before.robot after.robot :: effect.events after.robot

end Outcome

/-- A report on an action, in a world. -/
def World.reported (w : World) (action : String) (verdict : Verdict) (events : List Event) :
    Report :=
  { action, verdict, events, robot := w.robot, hasKey := w.hasKey, finished := w.finished
    picture := w.picture }

/-! ### Bounds -/

namespace Game

instance : IsPreorder Game Disturbed where
  refl := .refl
  trans _ _ _ := .trans

/-- **Nothing but the status has changed.** -/
def SameButStatus (g g' : Game) : Prop := ∃ s, g' = { g with status := s }

instance : IsPreorder Game SameButStatus where
  refl g := ⟨g.status, rfl⟩
  trans := by
    rintro g _ _ ⟨s, rfl⟩ ⟨s', rfl⟩
    exact ⟨s', rfl⟩

end Game

namespace Listener

variable {σ : Type} {tell : Listener σ} {fit : σ → Prop}

/-- **A listener stays within bounds**: as long as the audience is fit, it does not fail, and
what becomes of the game is within them; and so is a change of the status. -/
structure StaysWithin (tell : Listener σ) (fit : σ → Prop) (R : Game → Game → Prop) : Prop where
  status : ∀ g s, R g { g with status := s }
  notice : ∀ n t, fit t.audience → Play.Succeeds (tell n) t fun _ t' =>
    fit t'.audience ∧ R t.game t'.game

/-- **A listener that never calls back**: it does not fail, and leaves the game alone. -/
def Passive (tell : Listener σ) : Prop :=
  ∀ n t, ∃ audience, (tell n).on t = (.ok (), { t with audience })

theorem CallsBack.staysWithin (h : tell.CallsBack fit) : tell.StaysWithin fit Game.Disturbed where
  status := .status
  notice n t ht := (h n t ht).mono fun _ _ h' => ⟨h'.1, h'.2.disturbed⟩

theorem Passive.staysWithin (h : tell.Passive) :
    tell.StaysWithin (fun _ => True) Game.SameButStatus where
  status _ s := ⟨s, rfl⟩
  notice n t _ := by
    obtain ⟨audience, hon⟩ := h n t
    exact .of_on hon ⟨trivial, t.game.status, rfl⟩

/-- The listener that writes down every notice, the latest first. -/
def recorder : Listener (List Notice) := fun n => Play.modifyAudience (n :: ·)

theorem passive_recorder : recorder.Passive :=
  fun n t => ⟨n :: t.audience, rfl⟩

end Listener

namespace Play

variable {σ α β : Type} {tell : Listener σ} {fit : σ → Prop} {R : Game → Game → Prop}
  [IsPreorder Game R] {t : Table σ}

/-- **A play stays within bounds** as a listener does. -/
def Within (fit : σ → Prop) (R : Game → Game → Prop) (act : Play σ α) : Prop :=
  ∀ t, fit t.audience → Succeeds act t fun _ t' => fit t'.audience ∧ R t.game t'.game

namespace Within

theorem pure (a : α) : Within fit R (pure a : Play σ α) :=
  fun t ht => .pure ⟨ht, refl_of R t.game⟩

theorem bind {act : Play σ α} {next : α → Play σ β} (h : Within fit R act)
    (hnext : ∀ a, Within fit R (next a)) : Within fit R (act >>= next) := by
  intro t ht
  refine (h t ht).bind fun a t' ht' => (hnext a t' ht'.1).mono fun b t'' ht'' => ?_
  exact ⟨ht''.1, trans_of R ht'.2 ht''.2⟩

omit [IsPreorder Game R] in
theorem game {next : Game → Play σ β} (h : ∀ g, Within fit R (next g)) :
    Within fit R (Play.game >>= next) :=
  fun t ht => .game (h t.game t ht)

theorem forM {act : α → Play σ Unit} (h : ∀ a, Within fit R (act a)) (as : List α) :
    Within fit R (as.forM act) := by
  induction as with
  | nil => exact pure ()
  | cons a as ih => exact (h a).bind fun _ => ih

omit [IsPreorder Game R] in
theorem notice (h : tell.StaysWithin fit R) (n : Notice) : Within fit R (tell n) :=
  h.notice n

theorem report (h : tell.StaysWithin fit R) (text : String) (severity : Severity) :
    Within fit R (report tell text severity) := by
  intro t ht
  refine .modifyGame ((h.notice _ { t with game := { t.game with status := ⟨text, severity⟩ } }
    ht).mono fun _ _ h' => ⟨h'.1, ?_⟩)
  exact trans_of R (h.status t.game _) h'.2

theorem precheck (h : tell.StaysWithin fit R) (ds : List Direction) :
    Within fit R (precheck tell ds) := by
  cases ds with
  | nil => exact pure ()
  | cons d ds =>
    refine game fun g => ?_
    dsimp only
    split
    · exact (notice h _).bind fun _ => notice h _
    · exact pure ()

theorem tellStopped (h : tell.StaysWithin fit R) (mode : Mode) :
    Within fit R (tellStopped tell mode) := by
  cases mode <;> exact report h _ _

theorem tellDone (h : tell.StaysWithin fit R) (mode : Mode) :
    Within fit R (tellDone tell mode) := by
  cases mode <;> exact report h _ _

theorem tellBlocked (h : tell.StaysWithin fit R) (r : Replay) (d : Direction) :
    Within fit R (tellBlocked tell r d) := by
  unfold Play.tellBlocked
  split <;> exact report h _ _

theorem solution (h : tell.StaysWithin fit R) : Within fit R (solution tell) := by
  refine game fun g => ?_
  split
  · exact pure none
  · exact (notice h _).bind fun _ => pure _

theorem await (h : tell.StaysWithin fit R) (p : Pace) : Within fit R (await tell p) := by
  unfold Play.await
  split
  · exact notice h _
  · exact pure ()

end Within

/-! ### What comes of telling -/

/-- What is done for a run is done as it is, if it does not fail. -/
theorem Succeeds.guarded {act : Play σ α} {Q : α → Table σ → Prop} (h : Succeeds act t Q)
    (id : Nat) : Succeeds (guarded id act) t Q := by
  obtain ⟨a, t', hon, hq⟩ := h
  exact .of_on (on_guarded_of_ok hon) hq

/-- What reading a line comes to is what the line asks for. -/
theorem succeeds_readLine (h : tell.StaysWithin fit R) (ht : fit t.audience) (n : Nat)
    (line : String) :
    Succeeds (readLine tell n line) t fun ds? t' =>
      ds? = (Script.lineCommands t.game.rules.limits line).toOption ∧
        fit t'.audience ∧ R t.game t'.game := by
  refine .game ?_
  split
  · rename_i f hf
    rw [hf]
    refine (Within.report h _ _ t ht).bind fun _ t₁ h₁ => ?_
    refine (Within.notice h _ t₁ h₁.1).bind fun _ t₂ h₂ => ?_
    exact .pure ⟨rfl, h₂.1, trans_of R h₁.2 h₂.2⟩
  · rename_i ds hds
    rw [hds]
    dsimp only
    split
    · exact (Within.report h _ _ t ht).bind fun _ _ h₁ => .pure ⟨rfl, h₁⟩
    · split
      · exact (Within.notice h _ t ht).bind fun _ _ h₁ => .pure ⟨rfl, h₁⟩
      · exact .pure ⟨rfl, ht, refl_of R t.game⟩

/-- The player and the developer are told of a cell. -/
theorem succeeds_tellCell (h : tell.StaysWithin fit R) (ht : fit t.audience) (p : Point)
    (text line : String) (events : List Event) :
    Succeeds (tell (.cell p) >>= fun _ => report tell text .info >>= fun _ =>
      tell (.debug line) >>= fun _ => pure events) t fun es t' =>
      es = events ∧ fit t'.audience ∧ R t.game t'.game := by
  refine (Within.notice h _ t ht).bind fun _ t₁ h₁ => ?_
  refine (Within.report h _ _ t₁ h₁.1).bind fun _ t₂ h₂ => ?_
  refine (Within.notice h _ t₂ h₂.1).bind fun _ t₃ h₃ => ?_
  exact .pure ⟨rfl, h₃.1, trans_of R (trans_of R h₁.2 h₂.2) h₃.2⟩

/-- What is told of the cell that was entered is what it did. -/
theorem succeeds_announce (h : tell.StaysWithin fit R) (ht : fit t.audience) (p : Point)
    (e : Effect) :
    Succeeds (announce tell p e) t fun events t' =>
      events = e.events p ∧ fit t'.audience ∧ R t.game t'.game := by
  cases e with
  | none => exact .pure ⟨rfl, ht, refl_of R t.game⟩
  | keyCollected => exact succeeds_tellCell h ht p _ _ [.key p]
  | doorOpened => exact succeeds_tellCell h ht p _ _ [.door p]
  | flagReached =>
    refine .game ((Within.report h _ _ t ht).bind fun _ t₁ h₁ => ?_)
    refine (Within.notice h _ t₁ h₁.1).bind fun _ t₂ h₂ => ?_
    exact .pure ⟨rfl, h₂.1, trans_of R h₁.2 h₂.2⟩

/-- **The report on a move shows the game as it was left** by those who listened. -/
theorem succeeds_tellMove (h : tell.StaysWithin fit R) (ht : fit t.audience) (d : Direction)
    (before after : World) (outcome : Outcome) :
    Succeeds (tellMove tell d before after outcome) t fun res t' =>
      res = t'.game.world.reported d.name outcome.verdict (outcome.events d before after) ∧
        fit t'.audience ∧ R t.game t'.game := by
  cases outcome with
  | blocked =>
    exact (Within.notice h _ t ht).bind fun _ t₁ h₁ => .of_on (on_conclude _ _ _ t₁) ⟨rfl, h₁⟩
  | moved effect =>
    refine (Within.notice h _ t ht).bind fun _ t₁ h₁ => ?_
    refine (succeeds_announce h h₁.1 _ effect).bind fun events t₂ h₂ => ?_
    obtain ⟨rfl, h₂⟩ := h₂
    refine (Within.notice h _ t₂ h₂.1).bind fun _ t₃ h₃ => ?_
    exact .of_on (on_conclude _ _ _ t₃)
      ⟨rfl, h₃.1, trans_of R (trans_of R h₁.2 h₂.2) h₃.2⟩

/-- **A move is written, and then told.** -/
theorem succeeds_makeMove (h : tell.StaysWithin fit R) (ht : fit t.audience) (d : Direction) :
    Succeeds (makeMove tell d) t fun res t' =>
      res = t'.game.world.reported d.name (t.game.world.move d).2.verdict
        ((t.game.world.move d).2.events d t.game.world (t.game.world.move d).1) ∧
        fit t'.audience ∧ R (t.game.moved d) t'.game :=
  .of_eq (on_makeMove tell d t)
    (succeeds_tellMove h (t := { t with game := t.game.moved d }) ht d _ _ _)

end Play

end ScriptedMaze
