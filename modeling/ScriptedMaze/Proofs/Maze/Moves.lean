import ScriptedMaze.Maze.World
import ScriptedMaze.Proofs.Maze.Cells
import ScriptedMaze.Route.Search

/-!
# What a move does

A move is blocked and changes nothing, or it takes the robot to a point of the
grid, and then the cell there decides what else changes. `World.Entered` lists
the four things that can happen, and `World.move_cases` says that a move does
one of them; whatever a move keeps is read off the list.

Moves keep the size of the grid and the points at which flags lie, and they keep
a finished world finished. So the distance to the nearest flag is a lower bound
of the moves that finish a world: it drops by at most one with a move
(`World.flagDistance_le_move`), and it is zero when a flag has just been reached
(`World.flagDistance_of_finishes`).
-/

namespace ScriptedMaze

namespace World

variable {w w' : World} {p q : Point} {d : Direction} {e : Effect} {o : Outcome}

/-! ### The cases of a move -/

/-- **What entering a cell of the grid does**: the world `w` with the robot at
the point `p` becomes `w'`. -/
inductive Entered (w : World) (p : Point) : World → Effect → Prop
  /-- A key is picked up and leaves a floor. -/
  | key {g : Grid} : w.grid.cell? p = some .key → w.grid.set? p .floor = some g →
      Entered w p { grid := g, robot := p, hasKey := true, finished := w.finished } .keyCollected
  /-- A door is opened and becomes a floor. -/
  | door {g : Grid} : w.grid.cell? p = some .door → w.hasKey = true →
      w.grid.set? p .floor = some g →
      Entered w p { grid := g, robot := p, hasKey := w.hasKey, finished := w.finished } .doorOpened
  /-- A flag finishes the world. -/
  | flag : w.grid.cell? p = some .flag →
      Entered w p { grid := w.grid, robot := p, hasKey := w.hasKey, finished := true } .flagReached
  /-- Nothing else happens on a floor or on a start. -/
  | plain : w.grid.cell? p = some .floor ∨ w.grid.cell? p = some .start →
      Entered w p { grid := w.grid, robot := p, hasKey := w.hasKey, finished := w.finished } .none

/-- **A move is blocked, or it enters a cell of the grid.** -/
theorem move_cases (w : World) (d : Direction) :
    (w.blocked (w.target d) = true ∧ w.move d = (w, .blocked)) ∨
      (w.blocked (w.target d) = false ∧ w.grid.contains (w.target d) = true ∧
        ∃ w' e, w.move d = (w', .moved e) ∧ Entered w (w.target d) w' e) := by
  cases hb : w.blocked (w.target d) with
  | true => exact Or.inl ⟨rfl, move_of_blocked hb⟩
  | false =>
    have hin : w.grid.contains (w.target d) = true := by
      by_contra hout
      rw [blocked, if_neg hout] at hb
      exact Bool.noConfusion hb
    refine Or.inr ⟨rfl, hin, ?_⟩
    obtain ⟨k, hk⟩ := Grid.exists_cell hin
    obtain ⟨g, -, hg, -⟩ := Grid.set?_of_contains hin .floor
    have hopen : k ≠ .wall ∧ (k = .door → w.hasKey = true) := by
      rw [blocked, if_pos hin, hk] at hb
      cases k <;> simp_all
    have hmove : ∀ w' e, World.enter { w with robot := w.target d } (w.target d) = some (w', e) →
        w.move d = (w', .moved e) := by
      intro w' e he
      simp [move, attempt, hb, he]
    cases k with
    | wall => exact absurd rfl hopen.1
    | floor => exact ⟨_, _, hmove _ _ (by simp [enter, hk]), .plain (Or.inl hk)⟩
    | start => exact ⟨_, _, hmove _ _ (by simp [enter, hk]), .plain (Or.inr hk)⟩
    | flag => exact ⟨_, _, hmove _ _ (by simp [enter, hk]), .flag hk⟩
    | key => exact ⟨_, _, hmove _ _ (by simp [enter, hk, World.set?, hg]), .key hk hg⟩
    | door =>
      have hkey := hopen.2 rfl
      exact ⟨_, _, hmove _ _ (by simp [enter, hk, World.set?, hg, hkey]), .door hk hkey hg⟩

theorem eq_of_move_blocked (h : w.move d = (w', .blocked)) : w' = w := by
  rcases w.move_cases d with ⟨-, hm⟩ | ⟨-, -, w₁, e₁, hm, -⟩
  · rw [hm] at h
    cases h
    rfl
  · rw [hm] at h
    cases h

/-! ### What a move keeps -/

theorem Entered.robot (h : Entered w p w' e) : w'.robot = p := by
  cases h <;> rfl

theorem Entered.size (hp : w.grid.contains p = true) (h : Entered w p w' e) :
    w'.grid.width = w.grid.width ∧ w'.grid.height = w.grid.height := by
  cases h with
  | key _ hs => exact Grid.size_of_set? hp hs
  | door _ _ hs => exact Grid.size_of_set? hp hs
  | flag => exact ⟨rfl, rfl⟩
  | plain => exact ⟨rfl, rfl⟩

/-- Entering a cell leaves every flag where it was. -/
theorem Entered.mem_flags (hp : w.grid.contains p = true) (h : Entered w p w' e) (q : Point) :
    q ∈ w'.grid.places .flag ↔ q ∈ w.grid.places .flag := by
  cases h with
  | key hk hs => exact Grid.mem_places_of_set? hp hs (by simp [hk]) (by decide)
  | door hk _ hs => exact Grid.mem_places_of_set? hp hs (by simp [hk]) (by decide)
  | flag => exact Iff.rfl
  | plain => exact Iff.rfl

/-- Entering a cell keeps a finished world finished. -/
theorem Entered.finished (hf : w.finished = true) (h : Entered w p w' e) :
    w'.finished = true := by
  cases h with
  | flag => rfl
  | key => exact hf
  | door => exact hf
  | plain => exact hf

/-- Only a flag finishes a world. -/
theorem Entered.cell_of_finishes (hf : w.finished = false) (hf' : w'.finished = true)
    (h : Entered w p w' e) : w.grid.cell? p = some .flag := by
  cases h with
  | flag hk => exact hk
  | key => exact absurd (hf.symm.trans hf') Bool.false_ne_true
  | door => exact absurd (hf.symm.trans hf') Bool.false_ne_true
  | plain => exact absurd (hf.symm.trans hf') Bool.false_ne_true

theorem size_move (w : World) (d : Direction) :
    (w.move d).1.grid.width = w.grid.width ∧ (w.move d).1.grid.height = w.grid.height := by
  rcases w.move_cases d with ⟨-, hm⟩ | ⟨-, hin, w', e, hm, h⟩
  · rw [hm]
    exact ⟨rfl, rfl⟩
  · rw [hm]
    exact h.size hin

theorem mem_flags_move (w : World) (d : Direction) (q : Point) :
    q ∈ (w.move d).1.grid.places .flag ↔ q ∈ w.grid.places .flag := by
  rcases w.move_cases d with ⟨-, hm⟩ | ⟨-, hin, w', e, hm, h⟩
  · rw [hm]
  · rw [hm]
    exact h.mem_flags hin q

theorem finished_move (hf : w.finished = true) (d : Direction) : (w.move d).1.finished = true := by
  rcases w.move_cases d with ⟨-, hm⟩ | ⟨-, -, w', e, hm, h⟩
  · rw [hm]
    exact hf
  · rw [hm]
    exact h.finished hf

/-- A move takes the robot one point on, or leaves it where it is. -/
theorem robot_move (w : World) (d : Direction) :
    (w.move d).1.robot = w.target d ∧ w.grid.contains (w.target d) = true ∨
      (w.move d).1.robot = w.robot := by
  rcases w.move_cases d with ⟨-, hm⟩ | ⟨-, hin, w', e, hm, h⟩
  · rw [hm]
    exact Or.inr rfl
  · rw [hm]
    exact Or.inl ⟨h.robot, hin⟩

/-! ### Lists of moves -/

@[simp] theorem moves_nil (w : World) : w.moves [] = w := rfl

@[simp] theorem moves_cons (w : World) (d : Direction) (ds : List Direction) :
    w.moves (d :: ds) = (w.move d).1.moves ds := rfl

theorem moves_append (w : World) (ds es : List Direction) :
    w.moves (ds ++ es) = (w.moves ds).moves es := by
  simp [moves, List.foldl_append]

theorem moves_concat (w : World) (ds : List Direction) (d : Direction) :
    w.moves (ds ++ [d]) = ((w.moves ds).move d).1 := by
  rw [moves_append, moves_cons, moves_nil]

/-- A finished world stays finished. -/
theorem finished_moves (hf : w.finished = true) (ds : List Direction) :
    (w.moves ds).finished = true := by
  induction ds generalizing w with
  | nil => exact hf
  | cons d ds ih => exact ih (finished_move hf d)

/-! ### The distance to the nearest flag -/

/-- The distance to the nearest flag is that to some flag, if there is one. -/
theorem flagDistance_cases (w : World) (p : Point) :
    (∀ q, q ∉ w.grid.places .flag) ∧ w.flagDistance p = 0 ∨
      ∃ q ∈ w.grid.places .flag, w.flagDistance p = p.distance q := by
  rw [flagDistance]
  cases hmin : ((w.grid.places .flag).map p.distance).min? with
  | none =>
    rw [List.min?_eq_none_iff, List.map_eq_nil_iff] at hmin
    exact Or.inl ⟨fun q hq => by simp [hmin] at hq, rfl⟩
  | some n =>
    obtain ⟨q, hq, hn⟩ := List.mem_map.mp (List.min?_mem hmin)
    exact Or.inr ⟨q, hq, hn.symm⟩

/-- No flag is nearer than the nearest. -/
theorem flagDistance_le (hq : q ∈ w.grid.places .flag) : w.flagDistance p ≤ p.distance q := by
  rw [flagDistance]
  cases hmin : ((w.grid.places .flag).map p.distance).min? with
  | none => exact Nat.zero_le _
  | some n => exact (List.min?_eq_some_iff.mp hmin).2 _ (List.mem_map_of_mem hq)

/-- On a flag the distance is zero. -/
theorem flagDistance_of_mem (hq : q ∈ w.grid.places .flag) : w.flagDistance q = 0 := by
  have hle := flagDistance_le (p := q) hq
  have hself : q.distance q = 0 := by simp [Point.distance]
  omega

/-- **A move comes nearer to the nearest flag by at most one point.** -/
theorem flagDistance_le_move (w : World) (d : Direction) :
    w.flagDistance w.robot ≤ (w.move d).1.flagDistance (w.move d).1.robot + 1 := by
  rcases flagDistance_cases (w.move d).1 (w.move d).1.robot with ⟨hnone, -⟩ | ⟨q, hq, hdist⟩
  · -- there is no flag, before the move or after it
    rcases flagDistance_cases w w.robot with ⟨-, h0⟩ | ⟨q, hq, -⟩
    · rw [h0]
      exact Nat.zero_le _
    · exact absurd ((mem_flags_move w d q).mpr hq) (hnone q)
  · have hnear := flagDistance_le (p := w.robot) ((mem_flags_move w d q).mp hq)
    rw [hdist]
    rcases robot_move w d with ⟨hr, -⟩ | hr
    · rw [hr, target]
      exact hnear.trans (Point.distance_toward_le _ _ _)
    · rw [hr]
      omega

/-- **The robot stands on a flag when a move finishes the world.** -/
theorem flagDistance_of_finishes (hf : w.finished = false) (hf' : (w.move d).1.finished = true) :
    (w.move d).1.flagDistance (w.move d).1.robot = 0 := by
  rcases w.move_cases d with ⟨-, hm⟩ | ⟨-, hin, w', e, hm, h⟩
  · rw [hm] at hf'
    exact absurd (hf.symm.trans hf') Bool.false_ne_true
  · rw [hm] at hf' ⊢
    have hflag : w.target d ∈ w'.grid.places .flag :=
      (h.mem_flags hin _).mpr (Grid.mem_places.mpr ⟨hin, h.cell_of_finishes hf hf'⟩)
    change w'.flagDistance w'.robot = 0
    rw [h.robot]
    exact flagDistance_of_mem hflag

/-- Moves that finish a world do so at some move, and the robot stands on a flag
then. -/
theorem exists_finishing_prefix {ds : List Direction} (hf : w.finished = false)
    (hds : (w.moves ds).finished = true) :
    ∃ es, es <+: ds ∧ (w.moves es).finished = true ∧
      (w.moves es).flagDistance (w.moves es).robot = 0 := by
  induction ds generalizing w with
  | nil => exact absurd (hf.symm.trans hds) Bool.false_ne_true
  | cons d ds ih =>
    cases hnext : (w.move d).1.finished with
    | true => exact ⟨[d], ⟨ds, rfl⟩, hnext, flagDistance_of_finishes hf hnext⟩
    | false =>
      obtain ⟨es, hes, hfin, hzero⟩ := ih hnext hds
      exact ⟨d :: es, List.prefix_cons_inj d |>.mpr hes, hfin, hzero⟩

end World

end ScriptedMaze
