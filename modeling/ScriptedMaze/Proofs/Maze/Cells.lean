import Mathlib.Data.Set.Finite.List
import Mathlib.Data.Int.Interval
import ScriptedMaze.Maze.Grid

/-!
# Reading and replacing the cells of a grid

A point that lies in a grid addresses its cell by two indices that count from
the top left corner, and nothing counts from the far side there. Three facts
follow, and everything later about grids is read off them:

* the points at which a kind of cell lies are those in the grid whose cell is of
  that kind (`Grid.mem_places`);
* replacing the cell of a point in the grid replaces that cell and no other, and
  keeps the size (`Grid.set?_of_contains`, `Grid.cell?_of_set?`);
* there are finitely many grids of one size, and finitely many points in a grid
  (`Grid.finite_sameSize`, `Grid.finite_contains`).
-/

namespace ScriptedMaze

namespace Grid

variable {g g' : Grid} {p q : Point} {k l : Cell}

theorem contains_iff :
    g.contains p = true ↔ 0 ≤ p.x ∧ p.x < g.width ∧ 0 ≤ p.y ∧ p.y < g.height := by
  simp [contains, and_assoc]

/-- A coordinate in the grid means itself. -/
theorem index?_of_bounds {n : Nat} {i : Int} (h0 : 0 ≤ i) (hn : i < n) :
    index? n i = some i.toNat := by
  rw [index?, if_pos h0, if_pos hn]

/-- The row that a point in the grid lies on. -/
theorem exists_row (h : g.contains p = true) : ∃ row, g.rows[p.y.toNat]? = some row := by
  obtain ⟨-, -, h0, hy⟩ := contains_iff.mp h
  have hlt : p.y.toNat < g.rows.length := by
    rw [height] at hy
    omega
  exact ⟨_, List.getElem?_eq_getElem hlt⟩

theorem length_of_row {y : Nat} {row : List Cell} (h : g.rows[y]? = some row) :
    row.length = g.width :=
  g.length_eq_width row (List.mem_of_getElem? h)

/-- The cell of a point in the grid, by its row. -/
theorem cell?_of_row {row : List Cell} (h : g.contains p = true)
    (hrow : g.rows[p.y.toNat]? = some row) : g.cell? p = row[p.x.toNat]? := by
  obtain ⟨hx0, hx, hy0, hy⟩ := contains_iff.mp h
  simp [cell?, index?_of_bounds hx0 hx, index?_of_bounds hy0 hy, hrow]

/-- A point in the grid has a cell. -/
theorem exists_cell (h : g.contains p = true) : ∃ k, g.cell? p = some k := by
  obtain ⟨row, hrow⟩ := exists_row h
  obtain ⟨hx0, hx, -, -⟩ := contains_iff.mp h
  have hlt : p.x.toNat < row.length := by
    rw [length_of_row hrow]
    omega
  exact ⟨row[p.x.toNat], by rw [cell?_of_row h hrow, List.getElem?_eq_getElem hlt]⟩

/-! ### Where a kind of cell lies -/

theorem mem_placesInRow {y : Nat} {row : List Cell} :
    p ∈ placesInRow k y row ↔ p.y = y ∧ ∃ x : Nat, p.x = x ∧ row[x]? = some k := by
  obtain ⟨px, py⟩ := p
  simp only [placesInRow, List.mem_filterMap, Prod.exists, List.mem_zipIdx_iff_getElem?,
    Option.ite_none_right_eq_some, Option.some.injEq, Point.mk.injEq]
  constructor
  · rintro ⟨c, x, hc, rfl, hx, hy⟩
    exact ⟨hy.symm, x, hx.symm, hc⟩
  · rintro ⟨hy, x, hx, hc⟩
    exact ⟨k, x, hc, rfl, hx.symm, hy.symm⟩

/-- **A kind of cell lies at the points of the grid whose cell it is.** -/
theorem mem_places : p ∈ g.places k ↔ g.contains p = true ∧ g.cell? p = some k := by
  simp only [places, List.mem_flatMap, Prod.exists, List.mem_zipIdx_iff_getElem?, mem_placesInRow]
  constructor
  · rintro ⟨row, y, hrow, hy, x, hx, hk⟩
    have hxlt : x < row.length := (List.getElem?_eq_some_iff.mp hk).1
    have hylt : y < g.rows.length := (List.getElem?_eq_some_iff.mp hrow).1
    have hin : g.contains p = true := by
      rw [length_of_row hrow] at hxlt
      rw [contains_iff, height]
      omega
    have hrow' : g.rows[p.y.toNat]? = some row := by
      rw [hy]
      exact hrow
    refine ⟨hin, ?_⟩
    rw [cell?_of_row hin hrow', hx]
    exact hk
  · rintro ⟨hin, hk⟩
    obtain ⟨row, hrow⟩ := exists_row hin
    obtain ⟨hx0, -, hy0, -⟩ := contains_iff.mp hin
    rw [cell?_of_row hin hrow] at hk
    exact ⟨row, p.y.toNat, hrow, by omega, p.x.toNat, by omega, hk⟩

/-! ### Replacing a cell -/

/-- In the grid, the rows before a row and those behind it are the others. -/
theorem replaceRow_of_bounds {rows : List (List Cell)} {y : Int} (row : List Cell) (h0 : 0 ≤ y)
    (hy : y < rows.length) : replaceRow rows y row = rows.set y.toNat row := by
  have hlt : y.toNat < rows.length := by omega
  rw [replaceRow, cut, cut, if_pos h0, if_pos (by omega), List.set_eq_take_append_cons_drop,
    if_pos hlt]
  congr 3
  omega

/-- **Replacing the cell of a point in the grid** sets one place of one row. -/
theorem set?_of_contains (h : g.contains p = true) (k : Cell) :
    ∃ g' row, g.set? p k = some g' ∧ g.rows[p.y.toNat]? = some row ∧ g'.width = g.width ∧
      g'.rows = g.rows.set p.y.toNat (row.set p.x.toNat k) := by
  obtain ⟨row, hrow⟩ := exists_row h
  obtain ⟨hx0, hx, hy0, hy⟩ := contains_iff.mp h
  obtain ⟨hlt, hget⟩ := List.getElem?_eq_some_iff.mp hrow
  have hset : ∃ g', g.set? p k = some g' ∧ g'.width = g.width ∧
      g'.rows = replaceRow g.rows p.y (row.set p.x.toNat k) := by
    simp [set?, index?_of_bounds hx0 hx, index?_of_bounds hy0 hy, hlt, hget]
  obtain ⟨g', hg', hw, hrows⟩ := hset
  refine ⟨g', row, hg', hrow, hw, ?_⟩
  rw [hrows, replaceRow_of_bounds _ hy0 (by simpa [height] using hy)]

/-- Replacing a cell in the grid keeps its size. -/
theorem size_of_set? (h : g.contains p = true) (hs : g.set? p k = some g') :
    g'.width = g.width ∧ g'.height = g.height := by
  obtain ⟨g₁, row, hg₁, -, hw, hrows⟩ := set?_of_contains h k
  obtain rfl : g₁ = g' := Option.some.inj (hg₁.symm.trans hs)
  exact ⟨hw, by rw [height, hrows, List.length_set, height]⟩

/-- A grid of the same size contains the same points. -/
theorem contains_congr (hw : g'.width = g.width) (hh : g'.height = g.height) (p : Point) :
    g'.contains p = g.contains p := by
  rw [contains, contains, hw, hh]

/-- **Replacing the cell of a point in the grid replaces that cell and no
other.** -/
theorem cell?_of_set? (hp : g.contains p = true) (hs : g.set? p k = some g')
    (hq : g.contains q = true) : g'.cell? q = if q = p then some k else g.cell? q := by
  obtain ⟨g₁, row, hg₁, hrow, hw, hrows⟩ := set?_of_contains hp k
  obtain rfl : g₁ = g' := Option.some.inj (hg₁.symm.trans hs)
  obtain ⟨hw', hh'⟩ := size_of_set? hp hs
  have hq' : g₁.contains q = true := by rw [contains_congr hw' hh', hq]
  obtain ⟨hpx0, hpx, hpy0, hpy⟩ := contains_iff.mp hp
  obtain ⟨hqx0, hqx, hqy0, hqy⟩ := contains_iff.mp hq
  have hylt : p.y.toNat < g.rows.length := (List.getElem?_eq_some_iff.mp hrow).1
  have hxlt : p.x.toNat < row.length := by
    rw [length_of_row hrow]
    omega
  by_cases hy : q.y = p.y
  · -- the two points lie on one row, the one that was replaced
    have hrowq : g.rows[q.y.toNat]? = some row := by rw [hy, hrow]
    have hrowq' : g₁.rows[q.y.toNat]? = some (row.set p.x.toNat k) := by
      rw [hrows, hy, List.getElem?_set_self hylt]
    rw [cell?_of_row hq' hrowq', cell?_of_row hq hrowq]
    by_cases hx : q.x = p.x
    · have hqp : q = p := by
        cases q
        cases p
        exact congrArg₂ Point.mk hx hy
      rw [if_pos hqp, hx, List.getElem?_set_self hxlt]
    · have hqp : q ≠ p := fun h => hx (congrArg Point.x h)
      rw [if_neg hqp, List.getElem?_set_ne (by omega)]
  · have hqp : q ≠ p := fun h => hy (congrArg Point.y h)
    obtain ⟨rowq, hrowq⟩ := exists_row hq
    have hrowq' : g₁.rows[q.y.toNat]? = some rowq := by
      rw [hrows, List.getElem?_set_ne (by omega), hrowq]
    rw [if_neg hqp, cell?_of_row hq' hrowq', cell?_of_row hq hrowq]

/-- A kind of cell that is neither taken away nor put in lies where it lay. -/
theorem mem_places_of_set? (hp : g.contains p = true) (hs : g.set? p k = some g')
    (hl : g.cell? p ≠ some l) (hk : k ≠ l) : q ∈ g'.places l ↔ q ∈ g.places l := by
  obtain ⟨hw, hh⟩ := size_of_set? hp hs
  rw [mem_places, mem_places, contains_congr hw hh]
  refine and_congr_right fun hq => ?_
  rw [cell?_of_set? hp hs hq]
  by_cases hqp : q = p
  · rw [if_pos hqp, hqp]
    exact ⟨fun h => absurd (Option.some.inj h) hk, fun h => absurd h hl⟩
  · rw [if_neg hqp]

/-! ### Grids of one size -/

instance : Finite Cell :=
  Set.finite_univ_iff.mp ((List.finite_toSet Cell.all).subset fun k _ => by
    cases k <;> decide)

/-- A grid is known by its rows. -/
theorem rows_injective : Function.Injective Grid.rows := by
  rintro ⟨w₁, rows₁, hne, h₁⟩ ⟨w₂, rows₂, _, h₂⟩ h
  obtain rfl : rows₁ = rows₂ := h
  obtain ⟨row, hrow⟩ := List.exists_mem_of_ne_nil rows₁ hne
  obtain rfl : w₁ = w₂ := (h₁ row hrow).symm.trans (h₂ row hrow)
  rfl

/-- There are finitely many grids of one size. -/
theorem finite_sameSize (w h : Nat) : {g : Grid | g.width = w ∧ g.height = h}.Finite := by
  have hrow : Finite {row : List Cell // row.length = w} :=
    (List.finite_length_eq Cell w).to_subtype
  refine (((List.finite_length_eq {row : List Cell // row.length = w} h).image
    (List.map Subtype.val)).preimage rows_injective.injOn).subset ?_
  rintro g ⟨hw, hh⟩
  refine ⟨g.rows.attach.map fun r => ⟨r.1, by rw [g.length_eq_width r.1 r.2, hw]⟩, ?_, ?_⟩
  · change (g.rows.attach.map _).length = h
    rw [List.length_map, List.length_attach]
    exact hh
  · simp [Function.comp_def]

/-- There are finitely many points in a grid. -/
theorem finite_contains (g : Grid) : {p : Point | g.contains p = true}.Finite := by
  have hinj : Function.Injective fun p : Point => (p.x, p.y) := by
    rintro ⟨x, y⟩ ⟨x', y'⟩ h
    cases h
    rfl
  refine (((Set.finite_Ico 0 (g.width : Int)).prod
    (Set.finite_Ico 0 (g.height : Int))).preimage hinj.injOn).subset ?_
  intro p hp
  obtain ⟨hx0, hx, hy0, hy⟩ := contains_iff.mp hp
  exact ⟨⟨hx0, hx⟩, ⟨hy0, hy⟩⟩

end Grid

end ScriptedMaze
