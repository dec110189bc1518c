import ScriptedMaze.Play.Game

/-!
# Playing at a table

A **table** is a game and an audience that listens to it. Whatever is done to
the game is a `Play`: it ends in a result or a failure, and leaves the table in
some state either way. A failure keeps all that was done before it.

A **listener** is told of each notice at the moment it arises, in the middle of
whatever the game is doing, and may itself call on the game: stop the run, start
the maze over, change it. What the game does after a notice therefore depends on
the game as the listener left it. To allow for this a listener is a `Play`
itself, and every operation is given the listener to tell; a listener that does
nothing is `Listener.silent`.

What a play does is looked at with `Play.on`. The lemmas below say what it is
for each of the parts that plays are made of, so that a play is taken apart
without unfolding what a `Play` is.
-/

namespace ScriptedMaze

/-- A game and whoever listens to it. -/
structure Table (σ : Type) where
  game : Game
  audience : σ

/-- Something done to a game while an audience of type `σ` listens. A failure
keeps the game and the audience as they are when it occurs. -/
abbrev Play (σ α : Type) := ExceptT GameFault (StateM (Table σ)) α

/-- What is done when a notice arises. -/
abbrev Listener (σ : Type) := Notice → Play σ Unit

namespace Listener

/-- The listener that does nothing. -/
def silent {σ : Type} : Listener σ := fun _ => pure ()

end Listener

namespace Play

variable {σ : Type}

/-- Does something at a table: what comes of it, and the table afterwards. -/
def on {α : Type} (act : Play σ α) (t : Table σ) : Except GameFault α × Table σ :=
  (ExceptT.run act).run t

/-- The game as it is now. -/
def game : Play σ Game := do
  return (← get).game

/-- Changes the game. -/
def modifyGame (f : Game → Game) : Play σ Unit :=
  modify fun t => { t with game := f t.game }

/-- The audience as it is now. -/
def audience : Play σ σ := do
  return (← get).audience

/-- Changes the audience. -/
def modifyAudience (f : σ → σ) : Play σ Unit :=
  modify fun t => { t with audience := f t.audience }

/-! ### What the parts of a play do -/

@[simp]
theorem on_pure {α : Type} (a : α) (t : Table σ) : (pure a : Play σ α).on t = (.ok a, t) :=
  rfl

/-- What follows is done at the table as it was left, unless there was a
failure. -/
theorem on_bind {α β : Type} (act : Play σ α) (next : α → Play σ β) (t : Table σ) :
    (act >>= next).on t =
      match act.on t with
      | (.ok a, t') => (next a).on t'
      | (.error f, t') => (.error f, t') := by
  simp only [on, ExceptT.run_bind, StateT.run_bind]
  change (match StateT.run (ExceptT.run act) t with | (r, t') => _) = _
  rcases StateT.run (ExceptT.run act) t with ⟨_ | _, _⟩ <;> rfl

/-- What is done after a failure is done at the table as the failure left it. -/
theorem on_tryCatch {α : Type} (act : Play σ α) (mend : GameFault → Play σ α) (t : Table σ) :
    (tryCatch act mend).on t =
      match act.on t with
      | (.ok a, t') => (.ok a, t')
      | (.error f, t') => (mend f).on t' := by
  simp only [on, tryCatch, tryCatchThe, MonadExceptOf.tryCatch, ExceptT.tryCatch, ExceptT.run_mk,
    StateT.run_bind]
  change (StateT.run (ExceptT.run act) t >>= _) = _
  rcases StateT.run (ExceptT.run act) t with ⟨_ | _, _⟩ <;> rfl

@[simp]
theorem on_game (t : Table σ) : (game : Play σ Game).on t = (.ok t.game, t) :=
  rfl

@[simp]
theorem on_modifyGame (f : Game → Game) (t : Table σ) :
    (modifyGame f : Play σ Unit).on t = (.ok (), { t with game := f t.game }) :=
  rfl

@[simp]
theorem on_modifyAudience (f : σ → σ) (t : Table σ) :
    (modifyAudience f : Play σ Unit).on t = (.ok (), { t with audience := f t.audience }) :=
  rfl

end Play

end ScriptedMaze
