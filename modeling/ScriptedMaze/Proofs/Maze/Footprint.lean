import ScriptedMaze.Maze.Preset
import ScriptedMaze.Proofs.Maze.Moves

/-!
# What a robot leaves behind

The state of a maze in play is told by the points that the robot has entered since it stood
at the start, and by nothing else about the way that it took (`World.Footprint`). A key that was
entered is gone and the robot holds a key, a door that was entered is open, a flag that was
entered has finished the maze; every other cell is as it was drawn (`Grid.cleared`). And a door
is only entered by a robot that has entered a key before.

Entering a point a second time does nothing, which is why the points may be taken as a set: a
key or a door that was entered is a floor by then. The list keeps the order all the same, since
the order is what is said of doors.
-/

namespace ScriptedMaze

namespace Cell

/-- Whether a cell becomes a floor when it is entered. -/
def isTaken : Cell → Bool
  | key => true
  | door => true
  | _ => false

end Cell

/-! ### Grids that were walked over -/

namespace Grid

variable {g g' : Grid} {vs : List Point} {p q : Point} {k : Cell}

/-- **The grid with the keys and doors at some points cleared away.** -/
def cleared (g : Grid) (vs : List Point) : Grid where
  width := g.width
  rows := g.rows.mapIdx fun y row => row.mapIdx fun x k =>
    if ⟨x, y⟩ ∈ vs ∧ k.isTaken then .floor else k
  rows_ne_nil := by
    rw [ne_eq, List.mapIdx_eq_nil_iff]
    exact g.rows_ne_nil
  length_eq_width := by
    intro r hr
    obtain ⟨y, hy, rfl⟩ := List.mem_mapIdx.mp hr
    rw [List.length_mapIdx]
    exact g.length_eq_width _ (List.getElem_mem hy)

theorem height_cleared (g : Grid) (vs : List Point) : (g.cleared vs).height = g.height :=
  List.length_mapIdx

theorem contains_cleared (g : Grid) (vs : List Point) (p : Point) :
    (g.cleared vs).contains p = g.contains p :=
  contains_congr (show (g.cleared vs).width = g.width from rfl) (height_cleared g vs) p

/-- A cell of the grid is a floor if it was cleared away, and otherwise as it was. -/
theorem cell?_cleared (hp : g.contains p = true) :
    (g.cleared vs).cell? p =
      (g.cell? p).map fun k => if p ∈ vs ∧ k.isTaken then .floor else k := by
  obtain ⟨row, hrow⟩ := exists_row hp
  have hrow' : (g.cleared vs).rows[p.y.toNat]? = some (row.mapIdx fun x k =>
      if (⟨x, p.y.toNat⟩ : Point) ∈ vs ∧ k.isTaken then .floor else k) := by
    change (g.rows.mapIdx _)[p.y.toNat]? = _
    rw [List.getElem?_mapIdx, hrow]
    rfl
  obtain ⟨hx0, -, hy0, -⟩ := contains_iff.mp hp
  have hpoint : (⟨p.x.toNat, p.y.toNat⟩ : Point) = p := by
    rw [Int.toNat_of_nonneg hx0, Int.toNat_of_nonneg hy0]
  rw [cell?_of_row (by rw [contains_cleared, hp]) hrow', cell?_of_row hp hrow,
    List.getElem?_mapIdx, hpoint]

/-- **Grids of one size are equal if their cells are.** -/
theorem eq_of_cells (hw : g'.width = g.width) (hh : g'.height = g.height)
    (h : ∀ p, g.contains p = true → g'.cell? p = g.cell? p) : g' = g := by
  refine rows_injective (List.ext_getElem hh fun y hy' hy => ?_)
  have hlen : g.rows[y].length = g.width := g.length_eq_width _ (List.getElem_mem hy)
  have hlen' : g'.rows[y].length = g'.width := g'.length_eq_width _ (List.getElem_mem hy')
  refine List.ext_getElem? fun x => ?_
  by_cases hx : x < g.width
  · have hp : g.contains ⟨x, y⟩ = true := by
      rw [contains_iff, height]
      dsimp only
      omega
    have hp' : g'.contains ⟨x, y⟩ = true := by rw [contains_congr hw hh, hp]
    have hcell := h _ hp
    rwa [cell?_of_row hp' (List.getElem?_eq_getElem hy'),
      cell?_of_row hp (List.getElem?_eq_getElem hy)] at hcell
  · rw [List.getElem?_eq_none (by omega), List.getElem?_eq_none (by omega)]

/-- Nothing is cleared away where nothing was entered. -/
theorem cleared_nil (g : Grid) : g.cleared [] = g := by
  refine eq_of_cells rfl (height_cleared g []) fun p hp => ?_
  rw [cell?_cleared hp]
  simp

/-- What is left of the keys and doors are those that were not entered. -/
theorem cell?_cleared_taken_iff (hp : g.contains p = true) (hk : k.isTaken = true) :
    (g.cleared vs).cell? p = some k ↔ g.cell? p = some k ∧ p ∉ vs := by
  rw [cell?_cleared hp, Option.map_eq_some_iff]
  constructor
  · rintro ⟨l, hl, hlk⟩
    split at hlk
    · subst hlk
      cases hk
    · rename_i hnot
      subst hlk
      exact ⟨hl, fun hmem => hnot ⟨hmem, hk⟩⟩
  · rintro ⟨hcell, hnot⟩
    exact ⟨k, hcell, if_neg fun h => hnot h.1⟩

/-- Flags are not cleared away. -/
theorem cell?_cleared_flag_iff (hp : g.contains p = true) :
    (g.cleared vs).cell? p = some .flag ↔ g.cell? p = some .flag := by
  rw [cell?_cleared hp, Option.map_eq_some_iff]
  constructor
  · rintro ⟨l, hl, hlk⟩
    split at hlk
    · cases hlk
    · rwa [← hlk]
  · intro hcell
    exact ⟨.flag, hcell, if_neg fun h => Bool.false_ne_true h.2⟩

/-- **To clear away a key or a door is to put a floor in its place.** -/
theorem cleared_concat_of_taken (hp : g.contains p = true) (hk : k.isTaken = true)
    (hcell : g.cell? p = some k) (hset : (g.cleared vs).set? p .floor = some g') :
    g' = g.cleared (vs ++ [p]) := by
  have hin : (g.cleared vs).contains p = true := by rw [contains_cleared, hp]
  obtain ⟨hw, hh⟩ := size_of_set? hin hset
  refine eq_of_cells hw (by rw [hh, height_cleared, height_cleared]) fun q hq => ?_
  rw [contains_cleared] at hq
  rw [cell?_of_set? hin hset (by rw [contains_cleared, hq]), cell?_cleared hq, cell?_cleared hq]
  by_cases hqp : q = p
  · subst hqp
    rw [if_pos rfl, hcell]
    simp [hk]
  · simp [hqp]

/-- **A point that holds no key and no door is entered without a trace.** -/
theorem cleared_concat_of_not_taken (hp : g.contains p = true)
    (hcell : (g.cleared vs).cell? p = some k) (hk : k.isTaken = false) :
    g.cleared (vs ++ [p]) = g.cleared vs := by
  refine eq_of_cells rfl (by rw [height_cleared, height_cleared]) fun q hq => ?_
  rw [contains_cleared] at hq
  rw [cell?_cleared hq, cell?_cleared hq]
  by_cases hqp : q = p
  · subst hqp
    -- a key or a door there would not have been entered before, and so it would be there still
    rw [cell?_cleared hq] at hcell
    obtain ⟨l, hl, hlk⟩ := Option.map_eq_some_iff.mp hcell
    rw [hl]
    simp only [Option.map_some, List.mem_append, List.mem_singleton, or_true, true_and]
    cases hl' : l.isTaken with
    | false => simp
    | true =>
      have hmem : q ∈ vs := by
        by_contra hnot
        rw [if_neg fun h => hnot h.1] at hlk
        rw [hlk, hk] at hl'
        cases hl'
      simp [hmem]
  · simp [hqp]

end Grid

/-! ### What a robot has entered -/

namespace World

variable {g g' : Grid} {w w' : World} {vs : List Point} {d : Direction} {e : Effect} {p : Point}
  {k : Cell}

/-- The point that a move enters; a blocked move enters none. -/
def enteredBy (w : World) (d : Direction) : List Point :=
  if (w.move d).2 = .blocked then [] else [(w.move d).1.robot]

/-- **The points that moves enter**, one after the other. -/
def entered (w : World) : List Direction → List Point
  | [] => []
  | d :: ds => w.enteredBy d ++ entered (w.move d).1 ds

/-- **A world is what the points that were entered have made of a grid.** -/
structure Footprint (g : Grid) (vs : List Point) (w : World) : Prop where
  /-- The keys and doors that were entered are floors, and the rest is as it was. -/
  grid : w.grid = g.cleared vs
  width : w.grid.width = g.width
  height : w.grid.height = g.height
  hasKey_iff : w.hasKey = true ↔ ∃ p ∈ vs, g.cell? p = some .key
  finished_iff : w.finished = true ↔ ∃ p ∈ vs, g.cell? p = some .flag
  /-- A door was entered after some key. -/
  door : ∀ before p after, vs = before ++ p :: after → g.cell? p = some .door →
    ∃ q ∈ before, g.cell? q = some .key
  /-- The robot has not left the grid. -/
  inside : g.contains w.robot = true ∧ ∀ p ∈ vs, g.contains p = true
  /-- It stands on no wall, no key and no door. -/
  stands : ∃ k, w.grid.cell? w.robot = some k ∧ k ≠ .wall ∧ k ≠ .key ∧ k ≠ .door

namespace Footprint

/-- Where a robot has entered a door, it has entered a key. -/
theorem exists_key (h : Footprint g vs w) (hp : p ∈ vs) (hdoor : g.cell? p = some .door) :
    ∃ q ∈ vs, g.cell? q = some .key := by
  obtain ⟨before, after, hvs⟩ := List.append_of_mem hp
  obtain ⟨q, hq, hkey⟩ := h.door before p after hvs hdoor
  exact ⟨q, by simp [hvs, hq], hkey⟩

/-- **One more point is entered.** What has to be seen to is what the point does. -/
theorem concat (h : Footprint g vs w) (hp : g.contains p = true) (hrobot : w'.robot = p)
    (hgrid : w'.grid = g.cleared (vs ++ [p]))
    (hkey : w'.hasKey = true ↔ w.hasKey = true ∨ g.cell? p = some .key)
    (hfin : w'.finished = true ↔ w.finished = true ∨ g.cell? p = some .flag)
    (hdoor : g.cell? p = some .door → ∃ q ∈ vs, g.cell? q = some .key)
    (hstands : ∃ k, w'.grid.cell? p = some k ∧ k ≠ .wall ∧ k ≠ .key ∧ k ≠ .door) :
    Footprint g (vs ++ [p]) w' where
  grid := hgrid
  width := by
    rw [hgrid]
    rfl
  height := by rw [hgrid, Grid.height_cleared]
  hasKey_iff := by
    rw [hkey, h.hasKey_iff]
    simp [or_and_right, exists_or]
  finished_iff := by
    rw [hfin, h.finished_iff]
    simp [or_and_right, exists_or]
  door before q after hvs hq := by
    rcases List.eq_nil_or_concat after with rfl | ⟨after, r, rfl⟩
    · -- the door is the point that was entered last
      obtain ⟨rfl, hlast⟩ := List.append_inj' hvs rfl
      cases hlast
      exact hdoor hq
    · have hvs' : vs ++ [p] = (before ++ q :: after) ++ [r] := by simpa using hvs
      exact h.door before q after (List.append_inj' hvs' rfl).1 hq
  inside := by
    refine ⟨by rw [hrobot, hp], fun q hq => ?_⟩
    rcases List.mem_append.mp hq with hq | hq
    · exact h.inside.2 q hq
    · rw [List.mem_singleton.mp hq, hp]
  stands := by
    rw [hrobot]
    exact hstands

/-- **A key or a door that is taken** was drawn there, and is a floor from then on. -/
theorem taken (h : Footprint g vs w) (hp : g.contains p = true) (hk : k.isTaken = true)
    (hcell : w.grid.cell? p = some k) (hset : w.grid.set? p .floor = some g') :
    g.cell? p = some k ∧ g' = g.cleared (vs ++ [p]) ∧ g'.cell? p = some .floor := by
  rw [h.grid] at hcell hset
  have hdrawn := ((Grid.cell?_cleared_taken_iff hp hk).mp hcell).1
  have hin : (g.cleared vs).contains p = true := by rw [Grid.contains_cleared, hp]
  refine ⟨hdrawn, Grid.cleared_concat_of_taken hp hk hdrawn hset, ?_⟩
  rw [Grid.cell?_of_set? hin hset hin, if_pos rfl]

/-- **Entering a cell leaves its footprint.** -/
theorem entered (h : Footprint g vs w) (hp : g.contains p = true) (hent : Entered w p w' e) :
    Footprint g (vs ++ [p]) w' := by
  cases hent with
  | key hk hs =>
    obtain ⟨hcell, hgrid, hfloor⟩ := h.taken hp rfl hk hs
    refine h.concat hp rfl hgrid ?_ ?_ ?_ ?_
    · simp [hcell]
    · simp [hcell]
    · simp [hcell]
    · exact ⟨.floor, hfloor, by decide, by decide, by decide⟩
  | door hk hkey hs =>
    obtain ⟨hcell, hgrid, hfloor⟩ := h.taken hp rfl hk hs
    refine h.concat hp rfl hgrid ?_ ?_ ?_ ?_
    · simp [hcell]
    · simp [hcell]
    · -- the key that the robot holds was entered on the way
      exact fun _ => h.hasKey_iff.mp hkey
    · exact ⟨.floor, hfloor, by decide, by decide, by decide⟩
  | flag hk =>
    have hk' := hk
    rw [h.grid] at hk
    have hcell := (Grid.cell?_cleared_flag_iff hp).mp hk
    refine h.concat hp rfl ?_ ?_ ?_ ?_ ?_
    · rw [Grid.cleared_concat_of_not_taken hp hk rfl, ← h.grid]
    · simp [hcell]
    · simp [hcell]
    · simp [hcell]
    · exact ⟨.flag, hk', by decide, by decide, by decide⟩
  | plain hk =>
    obtain ⟨k, hcell, hk⟩ : ∃ k, w.grid.cell? p = some k ∧ (k = .floor ∨ k = .start) := by
      rcases hk with hk | hk
      · exact ⟨.floor, hk, .inl rfl⟩
      · exact ⟨.start, hk, .inr rfl⟩
    have hplain : k.isTaken = false ∧ k ≠ .wall ∧ k ≠ .key ∧ k ≠ .door ∧ k ≠ .flag := by
      rcases hk with rfl | rfl <;> decide
    obtain ⟨htaken, hwall, hnokey, hnodoor, hnoflag⟩ := hplain
    have hcleared := hcell
    rw [h.grid] at hcleared
    -- a key or a door was entered before
    have hold {l : Cell} (hl : l.isTaken = true) (hlk : k ≠ l) (hcell' : g.cell? p = some l) :
        p ∈ vs := by
      by_contra hnot
      have hstill := (Grid.cell?_cleared_taken_iff hp hl).mpr ⟨hcell', hnot⟩
      exact hlk (Option.some.inj (hcleared.symm.trans hstill))
    refine h.concat hp rfl ?_ ?_ ?_ ?_ ?_
    · rw [Grid.cleared_concat_of_not_taken hp hcleared htaken, ← h.grid]
    · refine ⟨.inl, fun hor => hor.elim id fun hkey => ?_⟩
      exact h.hasKey_iff.mpr ⟨p, hold rfl hnokey hkey, hkey⟩
    · refine ⟨.inl, fun hor => hor.elim id fun hflag => ?_⟩
      have hstill : (g.cleared vs).cell? p = some .flag :=
        (Grid.cell?_cleared_flag_iff hp).mpr hflag
      exact absurd (Option.some.inj (hcleared.symm.trans hstill)) hnoflag
    · exact fun hdoor => h.exists_key (hold rfl hnodoor hdoor) hdoor
    · exact ⟨k, hcell, hwall, hnokey, hnodoor⟩

/-- **So does a move**, and one that is blocked leaves none. -/
theorem move (h : Footprint g vs w) (d : Direction) :
    Footprint g (vs ++ w.enteredBy d) (w.move d).1 := by
  unfold enteredBy
  rcases w.move_cases d with ⟨-, hm⟩ | ⟨-, hin, w', e, hm, hent⟩
  · rw [hm, if_pos rfl, List.append_nil]
    exact h
  · rw [hm, if_neg nofun]
    have hp : g.contains (w.target d) = true := by
      rw [← Grid.contains_congr h.width h.height, hin]
    have hfoot := h.entered hp hent
    rwa [← hent.robot] at hfoot

theorem moves (h : Footprint g vs w) (ds : List Direction) :
    Footprint g (vs ++ w.entered ds) (w.moves ds) := by
  induction ds generalizing w vs with
  | nil =>
    rw [World.entered, List.append_nil]
    exact h
  | cons d ds ih =>
    rw [World.entered, ← List.append_assoc]
    exact ih (h.move d)

end Footprint

end World

/-! ### Mazes that are drawn -/

namespace Maze

variable {name hint : String} {rows : List String} {m : Maze}

/-- What is read of a drawing is the grid and the start in it. -/
theorem of_ofDrawing (h : ofDrawing name rows hint = .ok m) :
    Grid.ofDrawing rows = .ok m.grid ∧ m.grid.start = .ok m.start := by
  unfold ofDrawing at h
  cases hg : Grid.ofDrawing rows with
  | error f =>
    rw [hg] at h
    cases h
  | ok g =>
    rw [hg] at h
    change (g.start >>= fun p => _) = _ at h
    cases hp : g.start with
    | error f =>
      rw [hp] at h
      cases h
    | ok p =>
      rw [hp] at h
      cases h
      exact ⟨rfl, hp⟩

/-- The start that is drawn in a maze is in the grid. -/
theorem start_of_ofDrawing (h : ofDrawing name rows hint = .ok m) :
    m.grid.contains m.start = true ∧ m.grid.cell? m.start = some .start := by
  have hstart := (of_ofDrawing h).2
  unfold Grid.start at hstart
  split at hstart
  · cases hstart
  · rename_i p hp
    cases hstart
    exact Grid.mem_places.mp (by rw [hp]; exact List.mem_singleton_self _)
  · cases hstart

end Maze

/-- A preset is read from its drawing. -/
theorem Preset.ofDrawing_eq (p : Preset) :
    Maze.ofDrawing p.name p.rows p.hint = .ok p.maze := by
  obtain ⟨m, hm⟩ : ∃ m, Maze.ofDrawing p.name p.rows p.hint = .ok m := by
    have hok := p.ofDrawing_isOk
    cases hread : Maze.ofDrawing p.name p.rows p.hint with
    | error f =>
      rw [hread] at hok
      cases hok
    | ok m => exact ⟨m, rfl⟩
  have hmaze : p.maze = m := Option.get_of_eq_some _ (by rw [hm]; rfl)
  rw [hm, hmaze]

namespace World

/-- Before the first move nothing was entered. -/
theorem footprint_opening {m : Maze} (hin : m.grid.contains m.start = true)
    (hstart : m.grid.cell? m.start = some .start) : Footprint m.grid [] m.opening where
  grid := (Grid.cleared_nil m.grid).symm
  width := rfl
  height := rfl
  hasKey_iff := by simp [Maze.opening]
  finished_iff := by simp [Maze.opening]
  door before p after h := by simp at h
  inside := ⟨hin, nofun⟩
  stands := ⟨.start, hstart, by decide, by decide, by decide⟩

/-- **A maze in play is told by the points that were entered.** After any moves from the start
of a maze that is drawn, the world is what the points that they entered have made of the grid;
and a move that is blocked there leaves it as it is. -/
theorem footprint_moves {name hint : String} {rows : List String} {m : Maze}
    (h : Maze.ofDrawing name rows hint = .ok m) (ds : List Direction) :
    Footprint m.grid (m.opening.entered ds) (m.opening.moves ds) ∧
      ∀ d, ((m.opening.moves ds).move d).2 = .blocked →
        ((m.opening.moves ds).move d).1 = m.opening.moves ds := by
  obtain ⟨hin, hstart⟩ := Maze.start_of_ofDrawing h
  refine ⟨(footprint_opening hin hstart).moves ds, fun d hblocked => ?_⟩
  exact eq_of_move_blocked (Prod.ext rfl hblocked)

/-- In the easy maze the key is entered, then the door, which is left and entered again, and
then the flag; the last move is blocked by a wall. -/
theorem footprint_moves_easy :
    Maze.ofDrawing Preset.easy.name Preset.easy.rows Preset.easy.hint = .ok Preset.easy.maze ∧
      Preset.easy.maze.opening.entered
          [.right, .right, .left, .down, .up, .down, .down, .down] =
        [⟨2, 1⟩, ⟨3, 1⟩, ⟨2, 1⟩, ⟨2, 2⟩, ⟨2, 1⟩, ⟨2, 2⟩, ⟨2, 3⟩] ∧
      Footprint Preset.easy.maze.grid
        [⟨2, 1⟩, ⟨3, 1⟩, ⟨2, 1⟩, ⟨2, 2⟩, ⟨2, 1⟩, ⟨2, 2⟩, ⟨2, 3⟩]
        (Preset.easy.maze.opening.moves
          [.right, .right, .left, .down, .up, .down, .down, .down]) := by
  have hentered : Preset.easy.maze.opening.entered
      [.right, .right, .left, .down, .up, .down, .down, .down] =
        [⟨2, 1⟩, ⟨3, 1⟩, ⟨2, 1⟩, ⟨2, 2⟩, ⟨2, 1⟩, ⟨2, 2⟩, ⟨2, 3⟩] := by
    decide +kernel
  refine ⟨Preset.easy.ofDrawing_eq, hentered, ?_⟩
  rw [← hentered]
  exact (footprint_moves Preset.easy.ofDrawing_eq _).1

end World

end ScriptedMaze
