import ScriptedMaze.Maze.Point

/-!
# Cells and grids

A grid is a non-empty list of rows of cells, all of one width; both facts are
part of the type, so that nothing that takes a grid has to ask for them again.

## Coordinates

A cell is addressed by a point, and a coordinate may count from the far side:
in a row of `n` cells the columns `0, …, n - 1` count from the left, and
`-1, …, -n` from the right (`Grid.index?`). `Grid.cell?` and `Grid.set?` agree
on which points address a cell at all. A robot only ever stands on points *in*
the grid (`Grid.contains`), where no coordinate is negative.

Replacing a cell keeps the rows before it and the rows after it, and puts the
new row between the two. Where a row that counts from the bottom ends is told
by the row after it: the row after row `-1` is row `0`, so that at the last row,
addressed as `-1`, “the rows after it” are all rows, and the grid grows. Every
other address replaces the cell and nothing else.
-/

namespace ScriptedMaze

/-- What a cell of a maze holds. -/
inductive Cell where
  | wall
  | floor
  | start
  | flag
  | key
  | door
deriving DecidableEq, Hashable, Repr, Inhabited

namespace Cell

/-- The kinds of cell. -/
def all : List Cell := [wall, floor, start, flag, key, door]

/-- The character that stands for a cell in a maze's drawing. -/
def code : Cell → Char
  | wall => '#'
  | floor => '.'
  | start => 'S'
  | flag => 'F'
  | key => 'K'
  | door => 'D'

/-- The cell that a character of a drawing stands for. -/
def ofCode? (c : Char) : Option Cell :=
  all.find? (·.code = c)

/-- The code of a cell stands for that cell. -/
theorem ofCode?_code (k : Cell) : ofCode? k.code = some k := by
  cases k <;> decide

/-- Only the code of a cell stands for it. -/
theorem code_of_ofCode? {c : Char} {k : Cell} (h : ofCode? c = some k) : k.code = c := by
  simpa using List.find?_some h

end Cell

/-- Rows of cells, at least one, and all of one width. -/
structure Grid where
  width : Nat
  rows : List (List Cell)
  rows_ne_nil : rows ≠ []
  length_eq_width : ∀ r ∈ rows, r.length = width
deriving DecidableEq

namespace Grid

instance : Hashable Grid where
  hash g := hash g.rows

/-- The number of rows. -/
def height (g : Grid) : Nat := g.rows.length

/-- Whether a point lies in the grid, both coordinates counted from the top left
corner. -/
def contains (g : Grid) (p : Point) : Bool :=
  decide (0 ≤ p.x) && decide (p.x < g.width) && decide (0 ≤ p.y) && decide (p.y < g.height)

/-- The place that a coordinate means among `n`: one below zero counts from the
far side. -/
def index? (n : Nat) (i : Int) : Option Nat :=
  if 0 ≤ i then
    if i < n then some i.toNat else none
  else if 0 ≤ i + n then some (i + n).toNat
  else none

/-- Where a cut at a coordinate falls among `n`. -/
def cut (n : Nat) (i : Int) : Nat :=
  if 0 ≤ i then i.toNat else (i + n).toNat

/-- The cell that a point addresses. -/
def cell? (g : Grid) (p : Point) : Option Cell := do
  let row ← g.rows[← index? g.height p.y]?
  row[← index? g.width p.x]?

/-- The rows with one of them replaced: those before the row `y`, the new row,
and those from the row `y + 1` on. -/
def replaceRow (rows : List (List Cell)) (y : Int) (row : List Cell) : List (List Cell) :=
  rows.take (cut rows.length y) ++ row :: rows.drop (cut rows.length (y + 1))

theorem replaceRow_ne_nil (rows : List (List Cell)) (y : Int) (row : List Cell) :
    replaceRow rows y row ≠ [] := by
  simp [replaceRow]

theorem mem_of_mem_replaceRow {rows : List (List Cell)} {y : Int} {row r : List Cell}
    (h : r ∈ replaceRow rows y row) : r = row ∨ r ∈ rows := by
  simp only [replaceRow, List.mem_append, List.mem_cons] at h
  rcases h with h | h | h
  · exact .inr (List.mem_of_mem_take h)
  · exact .inl h
  · exact .inr (List.mem_of_mem_drop h)

/-- The grid with the cell that a point addresses replaced. -/
def set? (g : Grid) (p : Point) (k : Cell) : Option Grid :=
  match index? g.width p.x, index? g.height p.y with
  | some x, some y =>
    if h : y < g.rows.length then
      some {
        width := g.width
        rows := replaceRow g.rows p.y (g.rows[y].set x k)
        rows_ne_nil := replaceRow_ne_nil _ _ _
        length_eq_width := by
          intro r hr
          rcases mem_of_mem_replaceRow hr with rfl | hr
          · rw [List.length_set]
            exact g.length_eq_width _ (List.getElem_mem h)
          · exact g.length_eq_width r hr }
    else none
  | _, _ => none

/-- The points of a row at which a cell of one kind lies, in order. -/
def placesInRow (k : Cell) (y : Nat) (row : List Cell) : List Point :=
  row.zipIdx.filterMap fun (c, x) => if c = k then some ⟨x, y⟩ else none

/-- The points at which a cell of one kind lies, row by row. -/
def places (g : Grid) (k : Cell) : List Point :=
  g.rows.zipIdx.flatMap fun (row, y) => placesInRow k y row

/-- The points of the grid, row by row. -/
def points (g : Grid) : List Point :=
  (List.range g.height).flatMap fun (y : Nat) => (List.range g.width).map fun (x : Nat) => ⟨x, y⟩

/-- A row in the codes of its cells. -/
def rowCode (row : List Cell) : String :=
  String.ofList (row.map Cell.code)

/-- The grid in the codes of its cells, one string a row. -/
def codes (g : Grid) : List String :=
  g.rows.map rowCode

end Grid

end ScriptedMaze
