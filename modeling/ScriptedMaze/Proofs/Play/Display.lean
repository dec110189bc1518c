import ScriptedMaze.Maze.Preset
import ScriptedMaze.Proofs.Maze.Moves
import ScriptedMaze.Proofs.Play.Kept

/-!
# Displays that follow the notices

A **display** shows cells and a robot. It never looks at the game by itself: it copies a cell
when it is told that the cell may look different, and puts the robot where it is told that the
robot is shown. Such a display is never out of date (`Display.shows_performAll`).

What has to be seen to is that whatever changes the grid is followed by a notice of the cell. To
keep this apart from the robot, it is said of a play which cells it brings up to date as long as
the world is what it is (`Play.Draws`); every play that only tells brings none out of date. A
maze that is started is drawn as a whole (`Play.draws_rows`), and of a move the cell that was
entered is drawn if it has changed (`Play.shows_tellMove`).
-/

namespace ScriptedMaze

/-- What is shown: at each point that was drawn, a cell, and the robot. -/
structure Display where
  cells : Point → Option Cell := fun _ => none
  robot : Option Point := none

namespace Display

/-- **What a display makes of a notice** in a world. -/
def heard (v : Display) (w : World) : Notice → Display
  | .cell p => { v with cells := fun q => if q = p then w.grid.cell? p else v.cells q }
  | .robot p => { v with robot := some p }
  | _ => v

/-- **The display shows a world**: every cell of its grid, and its robot. -/
structure Shows (v : Display) (w : World) : Prop where
  cells : ∀ p, w.grid.contains p = true → v.cells p = w.grid.cell? p
  robot : v.robot = some w.robot

end Display

/-- **A display follows a listener**, who does not call back: it makes of each notice what a
display does. -/
def Listener.Follows {σ : Type} (tell : Listener σ) (view : σ → Display) : Prop :=
  ∀ n t, ∃ audience, (tell n).on t = (.ok (), { t with audience }) ∧
    view audience = (view t.audience).heard t.game.world n

/-- Entering a cell leaves all others as they are, and this one too unless it was a key or a
door. -/
theorem World.Entered.cell_cases {w w' : World} {p q : Point} {e : Effect}
    (h : Entered w p w' e) (hp : w.grid.contains p = true) (hq : w.grid.contains q = true) :
    (e = .keyCollected ∨ e = .doorOpened) ∧ q = p ∨ w'.grid.cell? q = w.grid.cell? q := by
  by_cases hqp : q = p
  · cases h with
    | key => exact .inl ⟨.inl rfl, hqp⟩
    | door => exact .inl ⟨.inr rfl, hqp⟩
    | flag => exact .inr rfl
    | plain => exact .inr rfl
  · refine .inr ?_
    cases h with
    | key _ hs => exact (Grid.cell?_of_set? hp hs hq).trans (if_neg hqp)
    | door _ _ hs => exact (Grid.cell?_of_set? hp hs hq).trans (if_neg hqp)
    | flag => rfl
    | plain => rfl

namespace Play

open Game

variable {σ α β : Type} {tell : Listener σ} {view : σ → Display} {t : Table σ} {w : World}
  {D D' : Point → Prop}

/-! ### Drawing cells -/

/-- **A play draws some cells**: in a given world, which it keeps, it brings them up to date, and
leaves no other cell out of date. -/
def Draws (view : σ → Display) (w : World) (D : Point → Prop) (act : Play σ α) : Prop :=
  ∀ t, t.game.world = w → Succeeds act t fun _ t' => t'.game.world = w ∧
    ∀ p, D p ∨ (view t.audience).cells p = w.grid.cell? p →
      (view t'.audience).cells p = w.grid.cell? p

namespace Draws

theorem pure (a : α) : Draws view w (fun _ => False) (pure a : Play σ α) :=
  fun _ ht => .pure ⟨ht, fun _ hp => hp.resolve_left id⟩

theorem bind {act : Play σ α} {next : α → Play σ β} (h : Draws view w D act)
    (hnext : ∀ a, Draws view w D' (next a)) :
    Draws view w (fun p => D p ∨ D' p) (act >>= next) := by
  intro t ht
  refine (h t ht).bind fun a t₁ h₁ => (hnext a t₁ h₁.1).mono fun b t₂ h₂ => ⟨h₂.1, fun p hp => ?_⟩
  rcases hp with (hp | hp) | hp
  · exact h₂.2 p (.inr (h₁.2 p (.inl hp)))
  · exact h₂.2 p (.inl hp)
  · exact h₂.2 p (.inr (h₁.2 p (.inr hp)))

theorem mono {act : Play σ α} (h : Draws view w D act) (hD : ∀ p, D' p → D p) :
    Draws view w D' act :=
  fun t ht => (h t ht).mono fun _ _ h' => ⟨h'.1, fun p hp => h'.2 p (hp.imp_left (hD p))⟩

theorem forM {act : α → Play σ Unit} {E : α → Point → Prop} (h : ∀ a, Draws view w (E a) (act a))
    (as : List α) : Draws view w (fun p => ∃ a ∈ as, E a p) (as.forM act) := by
  induction as with
  | nil => exact (pure ()).mono fun p hp => by simp at hp
  | cons a as ih =>
    refine ((h a).bind fun _ => ih).mono fun p hp => ?_
    simpa using hp

variable (h : tell.Follows view)

include h

/-- **Every notice draws the cell that it is about**, if it is about one. -/
theorem notice (n : Notice) : Draws view w (fun p => n = .cell p) (tell n) := by
  intro t ht
  obtain ⟨audience, hon, hview⟩ := h n t
  refine .of_on hon ⟨ht, fun p hp => ?_⟩
  rw [hview, ht]
  cases n with
  | cell q =>
    change (if p = q then w.grid.cell? q else (view t.audience).cells p) = w.grid.cell? p
    split
    · rename_i hpq
      rw [hpq]
    · rename_i hpq
      exact hp.resolve_left fun heq => hpq (by cases heq; rfl)
  | robot q => exact hp.resolve_left nofun
  | status s => exact hp.resolve_left nofun
  | debug text => exact hp.resolve_left nofun
  | pause seconds => exact hp.resolve_left nofun

theorem report (text : String) (severity : Severity) :
    Draws view w (fun _ => False) (report tell text severity) := by
  intro t ht
  refine .modifyGame ((notice h _ { t with game := { t.game with status := ⟨text, severity⟩ } }
    ht).mono fun _ t' h' => ⟨h'.1, fun p hp => h'.2 p (.inr (hp.resolve_left id))⟩)

/-- **What is told of a key or a door draws the cell** at which it was. -/
theorem announce (p : Point) (e : Effect) :
    Draws view w (fun q => (e = .keyCollected ∨ e = .doorOpened) ∧ q = p) (announce tell p e) := by
  have hcell (text line : String) (events : List Event) :
      Draws view w (fun q => q = p) (tell (.cell p) >>= fun _ => Play.report tell text .info >>=
        fun _ => tell (.debug line) >>= fun _ => Pure.pure events) := by
    refine ((notice h (.cell p)).bind fun _ => (report h text .info).bind fun _ =>
      (notice h (.debug line)).bind fun _ => pure events).mono fun q hq => ?_
    rw [hq]
    exact .inl rfl
  cases e with
  | none => exact (pure []).mono fun q hq => by simp at hq
  | keyCollected => exact (hcell _ _ _).mono fun q hq => hq.2
  | doorOpened => exact (hcell _ _ _).mono fun q hq => hq.2
  | flagReached =>
    intro t ht
    refine .game (((report h _ _).bind fun _ => (notice h _).bind fun _ => pure _).mono ?_ t ht)
    simp

end Draws

/-- **A maze is drawn row by row**, and no cell of it is left out. -/
theorem draws_rows (h : tell.Follows view) (w : World) :
    Draws view w (fun p => w.grid.contains p = true)
      ((List.range w.grid.height).forM (drawRow tell)) := by
  have hrow (y : Nat) : Draws view w (fun p => ∃ x ∈ List.range w.grid.width, p = ⟨x, y⟩)
      (drawRow tell y) := by
    intro t ht
    have hcells := Draws.forM (w := w) (fun x : Nat => Draws.notice h (.cell ⟨x, y⟩))
      (List.range w.grid.width)
    refine .game ?_
    dsimp only
    rw [ht]
    refine (hcells t ht).mono fun _ t' h' => ⟨h'.1, fun p hp => h'.2 p (hp.imp_left ?_)⟩
    rintro ⟨x, hx, rfl⟩
    exact ⟨x, hx, rfl⟩
  refine (Draws.forM hrow _).mono fun p hp => ?_
  obtain ⟨hx0, hx, hy0, hy⟩ := Grid.contains_iff.mp hp
  refine ⟨p.y.toNat, List.mem_range.mpr (by omega), p.x.toNat, List.mem_range.mpr (by omega), ?_⟩
  rw [Int.toNat_of_nonneg hx0, Int.toNat_of_nonneg hy0]

/-! ### Showing worlds -/

/-- **What is shown is the world of the game.** -/
def Shown (view : σ → Display) (t : Table σ) : Prop :=
  (view t.audience).Shows t.game.world

/-- Once every cell is up to date, it is enough that the robot is shown. -/
theorem shown_robot (h : tell.Follows view)
    (hcells : ∀ p, t.game.world.grid.contains p = true →
      (view t.audience).cells p = t.game.world.grid.cell? p) :
    Succeeds (tell (.robot t.game.world.robot)) t fun _ t' =>
      t'.game = t.game ∧ Shown view t' := by
  obtain ⟨audience, hon, hview⟩ := h (.robot t.game.world.robot) t
  refine .of_on hon ⟨rfl, ?_, ?_⟩
  · rw [hview]
    exact hcells
  · rw [hview]
    rfl

/-- Other notices, and other writes than those of the world, are no matter. -/
theorem keeps_shown_notice (h : tell.Follows view) {n : Notice} (hn : n.showsRobot = false) :
    Keeps (Shown view) (tell n) := by
  intro t ht
  obtain ⟨audience, hon, hview⟩ := h n t
  obtain ⟨_, t', hon', hworld, hcells⟩ := Draws.notice h n t rfl
  cases hon.symm.trans hon'
  rw [hon]
  refine ⟨fun p hp => hcells p (.inr (ht.cells p hp)), ?_⟩
  rw [hview]
  cases n with
  | robot p => cases hn
  | cell p => exact ht.robot
  | status s => exact ht.robot
  | debug text => exact ht.robot
  | pause seconds => exact ht.robot

/-- **A move is shown when it has been told**, if before it only the cell was out of date that
was entered, and only because a key or a door was there. -/
theorem shows_tellMove (h : tell.Follows view) (d : Direction) (before : World) (e : Effect)
    (hcells : ∀ p, t.game.world.grid.contains p = true →
      (e = .keyCollected ∨ e = .doorOpened) ∧ p = t.game.world.robot ∨
        (view t.audience).cells p = t.game.world.grid.cell? p) :
    Shown view ((tellMove tell d before t.game.world (.moved e)).on t).2 := by
  -- the cell that was left is drawn, then what was entered, and then the robot is shown
  obtain ⟨_, t₁, hon₁, hworld₁, hcells₁⟩ := Draws.notice h (.cell before.robot) t rfl
  obtain ⟨events, t₂, hon₂, hworld₂, hcells₂⟩ :=
    Draws.announce h t.game.world.robot e t₁ hworld₁
  obtain ⟨_, t₃, hon₃, -, hshown⟩ : Succeeds (tell (.robot t.game.world.robot)) t₂ fun _ t' =>
      t'.game = t₂.game ∧ Shown view t' := by
    rw [← hworld₂]
    refine shown_robot h fun p hp => ?_
    rw [hworld₂] at hp ⊢
    exact hcells₂ p ((hcells p hp).imp_right fun hold => hcells₁ p (.inr hold))
  unfold tellMove
  rw [on_bind, hon₁]
  dsimp only
  rw [on_bind, hon₂]
  dsimp only
  rw [on_bind, hon₃]
  exact hshown

theorem keeps_shown_makeMove (h : tell.Follows view) (d : Direction) :
    Keeps (Shown view) (makeMove tell d) := by
  intro t ht
  rw [on_makeMove]
  rcases t.game.world.move_cases d with ⟨-, hm⟩ | ⟨-, hin, w', e, hm, hent⟩
  · -- a move that is blocked is counted, and otherwise nothing happens
    have hmoved : Shown view { t with game := t.game.moved d } := by
      unfold Shown Game.moved
      rw [hm]
      exact ht
    rw [hm]
    have htold : Keeps (Shown view) (tellMove tell d t.game.world t.game.world .blocked) :=
      (keeps_shown_notice h rfl).bind fun _ => Keeps.game.bind fun _ => .pure _
    exact htold _ hmoved
  · have hmoved : (t.game.moved d).world = w' := by
      unfold Game.moved
      rw [hm]
    have hshows := shows_tellMove (t := { t with game := t.game.moved d }) h d t.game.world e
    dsimp only at hshows
    rw [hmoved] at hshows
    rw [hm]
    -- a cell that is not drawn now looks as it did, and so it was up to date before
    refine hshows fun p hp => ?_
    obtain ⟨hw, hh⟩ := hent.size hin
    rw [Grid.contains_congr hw hh] at hp
    rw [hent.robot]
    exact (hent.cell_cases hin hp).imp_right fun heq => (ht.cells p hp).trans heq.symm

/-- **What is drawn is shown.** -/
theorem shown_drawAll (h : tell.Follows view) (t : Table σ) :
    Succeeds (drawAll tell) t fun _ t' => Shown view t' := by
  refine .game ((draws_rows h t.game.world t rfl).bind fun _ t₁ h₁ => .game ?_)
  refine (shown_robot h fun p hp => ?_).mono fun _ _ h' => h'.2
  rw [h₁.1] at hp ⊢
  exact h₁.2 p (.inl hp)

theorem keeps_shown_report (h : tell.Follows view) (text : String) (severity : Severity) :
    Keeps (Shown view) (report tell text severity) :=
  .bind (fun _ ht => ht) fun _ => keeps_shown_notice h rfl

/-- **A maze that is started is shown**, whatever was shown before. -/
theorem shown_reset (h : tell.Follows view) (t : Table σ) : Shown view ((reset tell).on t).2 := by
  obtain ⟨audience, hon, -⟩ := h (.debug "Resetting maze...") t
  obtain ⟨_, t₁, hon₁, hshown⟩ := shown_drawAll h ⟨t.game.restarted, audience⟩
  have htold : Keeps (Shown view) (game >>= fun g =>
      report tell ("Maze reset (" ++ g.maze.name ++ "). Ready for your next attempt.") .plain) :=
    Keeps.game.bind fun g => keeps_shown_report h _ _
  have hreset : (reset tell).on t = (drawAll tell >>= fun _ => game >>= fun g =>
      report tell ("Maze reset (" ++ g.maze.name ++ "). Ready for your next attempt.") .plain).on
        ⟨t.game.restarted, audience⟩ := by
    unfold reset
    rw [on_bind, hon]
    rfl
  rw [hreset, on_bind, hon₁]
  exact htold t₁ hshown

/-- **What is shown lasts.** -/
theorem lasting_shown (h : tell.Follows view) : Lasting tell (Shown view) where
  write t g hg ht := by
    unfold Shown
    rw [hg]
    exact ht
  notice _ hn := keeps_shown_notice h hn
  move := keeps_shown_makeMove h
  reset := shown_reset h

end Play

namespace Display

variable {σ : Type} {tell : Listener σ} {view : σ → Display}

/-- **A display that follows the notices is never out of date**: from the beginning of a game on,
and after any operations, it shows every cell of the maze as it is and the robot where it is. -/
theorem shows_performAll (h : tell.Follows view) (rules : Rules) (maze : Maze) (audience : σ)
    (os : List Operation) {s : Sitting σ}
    (hs : s = (Sitting.performAll tell ⟨(Game.new tell rules maze audience).2, []⟩ os).2) :
    (view s.table.audience).Shows s.table.game.world := by
  have hnew : Play.Shown view (Game.new tell rules maze audience).2 :=
    Play.shown_reset h ⟨Game.unopened rules maze, audience⟩
  rw [hs]
  exact Sitting.lasting_performAll (Play.lasting_shown h)
    (s := ⟨(Game.new tell rules maze audience).2, []⟩) hnew os

/-- A listener that is a display and nothing else. -/
def follower : Listener Display := fun n => do
  let w := (← Play.game).world
  Play.modifyAudience (·.heard w n)

theorem follows_follower : follower.Follows id :=
  fun n t => ⟨t.audience.heard t.game.world n, rfl, rfl⟩

/-- A sitting in which the maze is changed in the middle of a run, and the key of the second maze is
taken. -/
def changed : Sitting Display :=
  (Sitting.performAll follower ⟨(Game.new follower {} Preset.easy.maze {}).2, []⟩
    [.openLive "first" "moveRight(); moveRight();", .next "first", .setDifficulty "medium",
      .openBatch "second" "for (let i = 0; i < 3; i++) { moveRight(); }", .drain "second"]).2

/-- The display has kept up with it. -/
theorem shows_performAll_changed :
    follower.Follows id ∧ changed.table.audience.cells ⟨4, 1⟩ = some .floor ∧
      changed.table.audience.robot = some ⟨4, 1⟩ ∧
      changed.table.audience.Shows changed.table.game.world :=
  ⟨follows_follower, by decide +kernel, by decide +kernel,
    shows_performAll follows_follower {} Preset.easy.maze {} _ rfl⟩

end Display

end ScriptedMaze
