import ScriptedMaze.Proofs.Play.Failing
import ScriptedMaze.Proofs.Play.Telling

/-!
# What a run says itself

While a notice of a run is heard, the listener may call on the game, and notices arise
again that are not the run's. To tell the two apart, a listener keeps a log beside whatever
else it does: at the end of each notice that it was told it notes the notice, and the game
before and after it (`Listener.Logs`). What arises in between goes its own way, so that the
log of a step of a run holds what the run has said itself (`Saying`). Every listener can be
made to keep such a log (`Listener.logging`), and it is no other listener for that.

Two things are told by a log. One is what was said, and this is compared with what a play
says to someone who only listens (`Play.words`). The other is what was written to the game
between one saying and the next; a run that **only tells** writes nothing but the statuses
that it reports (`Game.TellsOnly`).
-/

namespace ScriptedMaze

/-! ### Logs -/

/-- A notice that was told, with the game before it was heard and after that. -/
structure Saying where
  notice : Notice
  before : Game
  after : Game

namespace Listener

variable {σ : Type} {tell : Listener σ}

/-- **A listener keeps a log**: it notes each notice that it is told, and nothing besides. -/
def Logs (tell : Listener σ) (log : σ → List Saying) : Prop :=
  ∀ n t, log ((tell n).on t).2.audience =
    log t.audience ++ [⟨n, t.game, ((tell n).on t).2.game⟩]

/-- The listener with a log beside its audience. -/
def logging (tell : Listener σ) : Listener (σ × List Saying) := fun n => ExceptT.mk fun t =>
  let (result, t') := (tell n).on ⟨t.game, t.audience.1⟩
  (result, ⟨t'.game, t'.audience, t.audience.2 ++ [⟨n, t.game, t'.game⟩]⟩)

/-- But for the log the listener is the same. -/
theorem on_logging (tell : Listener σ) (n : Notice) (t : Table (σ × List Saying)) :
    (tell.logging n).on t = (((tell n).on ⟨t.game, t.audience.1⟩).1,
      ⟨((tell n).on ⟨t.game, t.audience.1⟩).2.game,
        ((tell n).on ⟨t.game, t.audience.1⟩).2.audience,
        t.audience.2 ++ [⟨n, t.game, ((tell n).on ⟨t.game, t.audience.1⟩).2.game⟩]⟩) :=
  rfl

theorem logs_logging (tell : Listener σ) : tell.logging.Logs Prod.snd :=
  fun _ _ => rfl

theorem MayFail.logging (h : tell.MayFail) : tell.logging.MayFail where
  untaken n t := h.untaken n ⟨t.game, t.audience.1⟩
  pause x t := by
    obtain ⟨audience, hon⟩ := h.pause x ⟨t.game, t.audience.1⟩
    exact ⟨(audience, t.audience.2 ++ [⟨.pause x, t.game, t.game⟩]), by rw [on_logging, hon]⟩

end Listener

/-- **What a play says in a game** to someone who only listens. -/
def Play.words {α : Type} (act : Play (List Notice) α) (g : Game) : List Notice :=
  (act.on ⟨g, []⟩).2.audience.reverse

/-! ### Games of which something is told -/

namespace Game

variable {g g' : Game} {e : Saying} {es : List Saying}

/-- The game of which a notice is told: a status is written first. -/
def announcing (g : Game) : Notice → Game
  | .status s => { g with status := s }
  | _ => g

@[simp] theorem runId_announcing (g : Game) (n : Notice) : (g.announcing n).runId = g.runId := by
  cases n <;> rfl

@[simp] theorem rules_announcing (g : Game) (n : Notice) : (g.announcing n).rules = g.rules := by
  cases n <;> rfl

/-- **From one game to another there was only something to tell**: nothing was written but
the statuses that were reported, and the rest was done by those who listened. -/
def TellsOnly : Game → List Saying → Game → Prop
  | g, [], g' => g' = g
  | g, e :: es, g' => e.before = g.announcing e.notice ∧ TellsOnly e.after es g'

/-- One more saying. -/
theorem TellsOnly.concat (h : TellsOnly g es g') (he : e.before = g'.announcing e.notice) :
    TellsOnly g (es ++ [e]) e.after := by
  induction es generalizing g with
  | nil =>
    obtain rfl : g' = g := h
    exact ⟨he, rfl⟩
  | cons x es ih => exact ⟨h.1, ih h.2⟩

end Game

end ScriptedMaze
