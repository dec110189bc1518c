import ScriptedMaze.Maze.Preset
import ScriptedMaze.Maze.World
import ScriptedMaze.Proofs.Maze.Cells

/-!
# Addresses that count from the far side

A point may address a cell with coordinates that count from the right or from the bottom. It
then means a point of the grid, its **home** (`Grid.home?`), where the same cell is addressed
from the top left corner; and a point that addresses a cell at all has a home
(`Grid.home?_isSome_iff`).

Replacing a cell looks at the row twice: the cell is put into the row that is addressed, and
the rows behind that row are told by the row after it. At every row but the last the two agree
about where the row lies, from whichever side it is counted, and then the cell at home is
replaced and no other (`Grid.replaces_of_ne`). The row after row `-1` is row `0`, though: where
the last row is addressed from the bottom, the new row comes in front of it and all rows come
again behind, so that the grid is twice as high and the address still means the old cell
(`Grid.grown_of_last`).

`World.replaces_iff_of_cell` puts this together for a world, and says what follows for entering
a cell.
-/

namespace ScriptedMaze

namespace Grid

variable {g g' : Grid} {p q : Point} {k l : Cell} {n i : Nat}

/-! ### Homes -/

/-- The point of the grid that is meant by a point, if there is one. -/
def home? (g : Grid) (p : Point) : Option Point :=
  match index? g.width p.x, index? g.height p.y with
  | some x, some y => some ⟨x, y⟩
  | _, _ => none

/-- A coordinate means the place that it is, or that it is when counted from the far side. -/
theorem index?_eq_some_iff {j : Int} :
    index? n j = some i ↔ i < n ∧ (j = i ∨ j < 0 ∧ j + n = i) := by
  unfold index?
  split
  · split
    · rw [Option.some.injEq]
      omega
    · simp only [reduceCtorEq, false_iff]
      omega
  · split
    · rw [Option.some.injEq]
      omega
    · simp only [reduceCtorEq, false_iff]
      omega

theorem home?_eq_some_iff :
    g.home? p = some q ↔
      ∃ x y : Nat, index? g.width p.x = some x ∧ index? g.height p.y = some y ∧ q = ⟨x, y⟩ := by
  unfold home?
  cases index? g.width p.x <;> cases index? g.height p.y <;> simp [eq_comm]

/-- A home lies in the grid. -/
theorem contains_of_home? (h : g.home? p = some q) : g.contains q = true := by
  obtain ⟨x, y, hx, hy, rfl⟩ := home?_eq_some_iff.mp h
  have hxlt := (index?_eq_some_iff.mp hx).1
  have hylt := (index?_eq_some_iff.mp hy).1
  rw [contains_iff]
  dsimp only
  omega

/-- A point of the grid is its own home. -/
theorem home?_of_contains (h : g.contains p = true) : g.home? p = some p := by
  obtain ⟨hx0, hx, hy0, hy⟩ := contains_iff.mp h
  refine home?_eq_some_iff.mpr
    ⟨_, _, index?_of_bounds hx0 hx, index?_of_bounds hy0 hy, ?_⟩
  rw [Int.toNat_of_nonneg hx0, Int.toNat_of_nonneg hy0]

/-- **A point addresses the cell of its home.** -/
theorem cell?_of_home? (h : g.home? p = some q) : g.cell? p = g.cell? q := by
  have hq := home?_of_contains (contains_of_home? h)
  obtain ⟨x, y, hx, hy, rfl⟩ := home?_eq_some_iff.mp h
  obtain ⟨x', y', hx', hy', heq⟩ := home?_eq_some_iff.mp hq
  obtain ⟨hxx, hyy⟩ := Point.mk.inj heq
  obtain rfl : x = x' := Int.ofNat.inj hxx
  obtain rfl : y = y' := Int.ofNat.inj hyy
  unfold cell?
  rw [hx, hy, hx', hy']

/-- A point that means no point of the grid addresses nothing. -/
theorem cell?_of_home?_eq_none (h : g.home? p = none) : g.cell? p = none := by
  unfold home? at h
  unfold cell?
  split at h
  · cases h
  · rename_i hnot
    cases hy : index? g.height p.y with
    | none => rfl
    | some y =>
      cases hx : index? g.width p.x with
      | none => simp
      | some x => exact absurd hy (hnot x y hx)

theorem home?_isSome_iff : (g.home? p).isSome ↔ (g.cell? p).isSome := by
  cases h : g.home? p with
  | none =>
    rw [cell?_of_home?_eq_none h]
    exact Iff.rfl
  | some q =>
    obtain ⟨k, hk⟩ := exists_cell (contains_of_home? h)
    rw [cell?_of_home? h, hk]
    exact Iff.rfl

theorem home?_congr (hw : g'.width = g.width) (hh : g'.height = g.height) (p : Point) :
    g'.home? p = g.home? p := by
  unfold home?
  rw [hw, hh]

/-! ### Replacing -/

/-- **One cell is replaced and nothing else.** -/
structure Replaces (g : Grid) (p : Point) (k : Cell) (g' : Grid) : Prop where
  width : g'.width = g.width
  height : g'.height = g.height
  /-- The cell is read back where it was put. -/
  cell : g'.cell? p = some k
  /-- Whoever means another cell finds what was there. -/
  other : ∀ q, g.home? q ≠ g.home? p → g'.cell? q = g.cell? q

/-- The rows before a row and those behind it are the others, from whichever side the row is
counted, unless the row after it is counted from the other side. -/
theorem replaceRow_of_index? {rows : List (List Cell)} {y : Int}
    (hy : index? rows.length y = some i) (hne : y ≠ -1) (row : List Cell) :
    replaceRow rows y row = replaceRow rows i row := by
  have hcut : cut rows.length y = cut rows.length i ∧
      cut rows.length (y + 1) = cut rows.length (i + 1) := by
    have hi := index?_eq_some_iff.mp hy
    unfold cut
    constructor
    · split <;> split <;> omega
    · split <;> split <;> omega
  rw [replaceRow, replaceRow, hcut.1, hcut.2]

/-- The last row, counted from the bottom: everything is in front of the new row but the last
row, and everything is behind it. -/
theorem replaceRow_last (rows : List (List Cell)) (row : List Cell) :
    replaceRow rows (-1) row = rows.dropLast ++ row :: rows := by
  have hcut : cut rows.length (-1) = rows.length - 1 ∧ cut rows.length (-1 + 1) = 0 := by
    unfold cut
    constructor
    · split <;> omega
    · rfl
  rw [replaceRow, hcut.1, hcut.2, List.dropLast_eq_take, List.drop_zero]

/-- Whoever addresses a cell can replace it. -/
theorem exists_set? (h : g.home? p = some q) (k : Cell) :
    ∃ g' row, g.set? p k = some g' ∧ g'.width = g.width ∧
      g'.rows = replaceRow g.rows p.y (row.set q.x.toNat k) ∧ g.rows[q.y.toNat]? = some row := by
  obtain ⟨x, y, hx, hy, rfl⟩ := home?_eq_some_iff.mp h
  have hlt : y < g.rows.length := (index?_eq_some_iff.mp hy).1
  unfold set?
  rw [hx, hy]
  simp [hlt]

/-- **A cell that is not addressed in the last row from the bottom is replaced at home.** -/
theorem set?_eq_of_ne (h : g.home? p = some q) (hne : p.y ≠ -1) (k : Cell) :
    g.set? p k = g.set? q k := by
  obtain ⟨g₁, row, hset, hw, hrows, hrow⟩ := exists_set? h k
  obtain ⟨g₂, row', hset', hw', hrows', hrow'⟩ :=
    exists_set? (home?_of_contains (contains_of_home? h)) k
  obtain rfl : row = row' := Option.some.inj (hrow.symm.trans hrow')
  obtain ⟨x, y, -, hy, rfl⟩ := home?_eq_some_iff.mp h
  have heq : g₁ = g₂ := by
    refine rows_injective ?_
    rw [hrows, hrows', replaceRow_of_index? hy hne]
  rw [hset, hset', heq]

/-- **A cell is replaced and no other**, unless it is addressed in the last row from the
bottom. -/
theorem replaces_of_ne (hs : g.set? p k = some g') (hne : p.y ≠ -1)
    (h : g.home? p = some q) : g.Replaces p k g' := by
  rw [set?_eq_of_ne h hne] at hs
  have hin := contains_of_home? h
  obtain ⟨hw, hh⟩ := size_of_set? hin hs
  have hp : g'.home? p = some q := by rw [home?_congr hw hh, h]
  refine ⟨hw, hh, ?_, fun r hr => ?_⟩
  · rw [cell?_of_home? hp, cell?_of_set? hin hs hin, if_pos rfl]
  · cases hhome : g.home? r with
    | none =>
      rw [cell?_of_home?_eq_none hhome,
        cell?_of_home?_eq_none (by rw [home?_congr hw hh, hhome])]
    | some r' =>
      have hne' : r' ≠ q := by
        rintro rfl
        exact hr (hhome.trans h.symm)
      have hr' : g'.home? r = some r' := by rw [home?_congr hw hh, hhome]
      rw [cell?_of_home? hr', cell?_of_home? hhome,
        cell?_of_set? hin hs (contains_of_home? hhome), if_neg hne']

/-- **The last row is addressed from the bottom**: the grid is twice as high, and the cell that
is addressed is the one that was there. -/
theorem grown_of_last (hs : g.set? p k = some g') (hy : p.y = -1) (h : g.home? p = some q) :
    g'.width = g.width ∧ g'.height = 2 * g.height ∧ g'.cell? p = g.cell? p := by
  obtain ⟨g₁, row, hset, hw, hrows, hrow⟩ := exists_set? h k
  obtain rfl : g₁ = g' := Option.some.inj (hset.symm.trans hs)
  rw [hy, replaceRow_last] at hrows
  have hpos : 0 < g.rows.length := List.length_pos_iff.mpr g.rows_ne_nil
  have hheight : g₁.rows.length = 2 * g.rows.length := by
    rw [hrows, List.length_append, List.length_dropLast, List.length_cons]
    omega
  refine ⟨hw, hheight, ?_⟩
  have hlast : index? g.height p.y = some (g.rows.length - 1) :=
    index?_eq_some_iff.mpr ⟨by rw [height]; omega, by rw [height]; omega⟩
  have hlast' : index? g₁.height p.y = some (g₁.rows.length - 1) :=
    index?_eq_some_iff.mpr ⟨by rw [height]; omega, by rw [height]; omega⟩
  -- the last of all rows is the one that was last before
  have hsame : g₁.rows[g₁.rows.length - 1]? = g.rows[g.rows.length - 1]? := by
    rw [← List.getLast?_eq_getElem?, ← List.getLast?_eq_getElem?, hrows,
      List.getLast?_append_cons, List.getLast?_cons_of_ne_nil g.rows_ne_nil]
  unfold cell?
  rw [hlast, hlast', hw]
  simp only [Option.bind_eq_bind, Option.bind_some]
  rw [hsame]

/-- So no cell is replaced then. -/
theorem replaces_iff (hs : g.set? p k = some g') (h : g.home? p = some q) :
    g.Replaces p k g' ↔ p.y ≠ -1 := by
  refine ⟨fun hr hy => ?_, fun hne => replaces_of_ne hs hne h⟩
  have hpos : 0 < g.height := List.length_pos_iff.mpr g.rows_ne_nil
  have hgrown := (grown_of_last hs hy h).2.1
  have hheight := hr.height
  omega

end Grid

namespace World

open Grid

/-- **Replacing the cell that a point addresses replaces that cell and nothing else exactly if
the point does not address the last row from the bottom.** There the grid grows to twice its
height and the old cell is found where the new one was put. Entering a cell keeps the size of
the grid unless a key is taken or a door is opened that is addressed so. -/
theorem replaces_iff_of_cell (w : World) {p : Point} {l : Cell} (h : w.grid.cell? p = some l)
    (k : Cell) :
    (∃ g, w.set? p k = some { w with grid := g } ∧ (w.grid.Replaces p k g ↔ p.y ≠ -1) ∧
      (p.y = -1 → g.width = w.grid.width ∧ g.height = 2 * w.grid.height ∧
        g.cell? p = some l)) ∧
    ∃ w' e, w.enter p = some (w', e) ∧
      (w'.grid.width = w.grid.width ∧ w'.grid.height = w.grid.height ↔
        p.y ≠ -1 ∨ e = .none ∨ e = .flagReached) := by
  obtain ⟨q, hq⟩ := Option.isSome_iff_exists.mp (home?_isSome_iff.mpr (by rw [h]; rfl))
  have hset (k : Cell) :
      ∃ g, w.grid.set? p k = some g ∧ w.set? p k = some { w with grid := g } := by
    obtain ⟨g, -, hg, -⟩ := exists_set? hq k
    exact ⟨g, hg, by rw [World.set?, hg]; rfl⟩
  have hsize {g : Grid} (hg : w.grid.set? p .floor = some g) :
      g.width = w.grid.width ∧ g.height = w.grid.height ↔ p.y ≠ -1 := by
    refine ⟨fun hsame hy => ?_, fun hne => ?_⟩
    · have hpos : 0 < w.grid.height := List.length_pos_iff.mpr w.grid.rows_ne_nil
      have hgrown := (grown_of_last hg hy hq).2.1
      omega
    · have hr := replaces_of_ne hg hne hq
      exact ⟨hr.width, hr.height⟩
  constructor
  · obtain ⟨g, hg, hw⟩ := hset k
    refine ⟨g, hw, replaces_iff hg hq, fun hy => ?_⟩
    rw [← h]
    exact grown_of_last hg hy hq
  · obtain ⟨g, hg, hw⟩ := hset .floor
    unfold enter
    rw [h]
    cases l with
    | key => exact ⟨_, .keyCollected, by rw [hw]; rfl, by simpa using hsize hg⟩
    | door =>
      dsimp only
      split
      · exact ⟨_, .doorOpened, by rw [hw]; rfl, by simpa using hsize hg⟩
      · exact ⟨w, .none, rfl, by simp⟩
    | flag => exact ⟨_, .flagReached, rfl, by simp⟩
    | wall => exact ⟨w, .none, rfl, by simp⟩
    | floor => exact ⟨w, .none, rfl, by simp⟩
    | start => exact ⟨w, .none, rfl, by simp⟩

/-- The key of the easy maze, addressed from the right and from the bottom. -/
theorem replaces_iff_of_cell_easy :
    Preset.easy.maze.grid.cell? ⟨-2, -4⟩ = some .key ∧
      ∃ g, Preset.easy.maze.opening.set? ⟨-2, -4⟩ .door =
          some { Preset.easy.maze.opening with grid := g } ∧
        Preset.easy.maze.grid.Replaces ⟨-2, -4⟩ .door g := by
  have hkey : Preset.easy.maze.grid.cell? ⟨-2, -4⟩ = some .key := by decide +kernel
  obtain ⟨⟨g, hset, hiff, -⟩, -⟩ :=
    replaces_iff_of_cell Preset.easy.maze.opening hkey .door
  exact ⟨hkey, g, hset, hiff.mpr (by decide)⟩

/-- **A cell may be addressed and yet not be replaced**: in the easy maze, a cell of the last
row that is addressed from the bottom. -/
theorem not_forall_replaces :
    ¬∀ (w : World) (p : Point) (k : Cell), (w.grid.cell? p).isSome = true →
      ∃ g, w.set? p k = some { w with grid := g } ∧ w.grid.Replaces p k g := by
  intro h
  obtain ⟨g, hset, hr⟩ := h Preset.easy.maze.opening ⟨0, -1⟩ .key (by decide +kernel)
  have hgrown : (Preset.easy.maze.opening.set? ⟨0, -1⟩ .key).map (·.grid.height) = some 10 := by
    decide +kernel
  rw [hset, Option.map_some, hr.height] at hgrown
  revert hgrown
  decide +kernel

end World

end ScriptedMaze
