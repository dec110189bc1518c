import ScriptedMaze.Maze.Fault
import ScriptedMaze.Maze.Grid
import ScriptedMaze.Text.Blank

/-!
# Drawings

A maze is drawn as rows of characters, one character a cell. Rows may be
indented and blank rows may stand between them: each row is trimmed, and the
blank ones are dropped (`Drawing.lines`). What is left is a grid if all rows are
as wide as the first and every character is the code of a cell
(`Grid.ofDrawing`). The rows are read in order, and a row's width is looked at
before its characters, so that the first row that fails decides the fault.
-/

namespace ScriptedMaze

namespace Drawing

/-- The rows of a drawing that are not blank, trimmed. -/
def lines (rows : List String) : List (List Char) :=
  (rows.map fun row => Text.trim row.toList).filter (!·.isEmpty)

/-- The cells of a row, which is row `y` and starts at column `x`. -/
def readRow (y : Nat) : (x : Nat) → List Char → Except MazeFault (List Cell)
  | _, [] => .ok []
  | x, c :: r =>
    match Cell.ofCode? c with
    | none => .error (.unknownCode c x y)
    | some k =>
      match readRow y (x + 1) r with
      | .ok ks => .ok (k :: ks)
      | .error e => .error e

/-- The cells of rows of one width, the first of which is row `y`. -/
def readRows (width : Nat) : (y : Nat) → List (List Char) → Except MazeFault (List (List Cell))
  | _, [] => .ok []
  | y, line :: rest =>
    if line.length = width then
      match readRow y 0 line with
      | .error e => .error e
      | .ok row =>
        match readRows width (y + 1) rest with
        | .ok rows => .ok (row :: rows)
        | .error e => .error e
    else .error .ragged

/-- A row has as many cells as characters. -/
theorem length_readRow {y x : Nat} {cs : List Char} {ks : List Cell}
    (h : readRow y x cs = .ok ks) : ks.length = cs.length := by
  induction cs generalizing x ks with
  | nil => cases h; rfl
  | cons c r ih =>
    unfold readRow at h
    split at h
    · cases h
    · split at h
      · rename_i ks' hr
        cases h
        simp [ih hr]
      · cases h

/-- All rows that were read have the width. -/
theorem length_of_mem_readRows {width y : Nat} {ls : List (List Char)} {rows : List (List Cell)}
    (h : readRows width y ls = .ok rows) : ∀ r ∈ rows, r.length = width := by
  induction ls generalizing y rows with
  | nil => cases h; simp
  | cons line rest ih =>
    unfold readRows at h
    split at h
    · rename_i hw
      split at h
      · cases h
      · rename_i row hrow
        split at h
        · rename_i rows' hrows
          cases h
          intro r hr
          rcases List.mem_cons.mp hr with rfl | hr
          · rw [length_readRow hrow, hw]
          · exact ih hrows r hr
        · cases h
    · cases h

/-- As many rows are read as there are. -/
theorem length_readRows {width y : Nat} {ls : List (List Char)} {rows : List (List Cell)}
    (h : readRows width y ls = .ok rows) : rows.length = ls.length := by
  induction ls generalizing y rows with
  | nil => cases h; rfl
  | cons line rest ih =>
    unfold readRows at h
    split at h
    · split at h
      · cases h
      · split at h
        · rename_i rows' hrows
          cases h
          simp [ih hrows]
        · cases h
    · cases h

end Drawing

namespace Grid

/-- The grid that trimmed lines draw. -/
def ofLines : List (List Char) → Except MazeFault Grid
  | [] => .error .empty
  | first :: rest =>
    match h : Drawing.readRows first.length 0 (first :: rest) with
    | .error e => .error e
    | .ok rows =>
      .ok {
        width := first.length
        rows
        rows_ne_nil := by
          intro hnil
          have := Drawing.length_readRows h
          simp [hnil] at this
        length_eq_width := Drawing.length_of_mem_readRows h }

/-- The grid that a drawing draws. -/
def ofDrawing (rows : List String) : Except MazeFault Grid :=
  ofLines (Drawing.lines rows)

/-- The one start of a grid. -/
def start (g : Grid) : Except MazeFault Point :=
  match g.places .start with
  | [] => .error .noStart
  | [p] => .ok p
  | _ :: _ :: _ => .error .secondStart

end Grid

end ScriptedMaze
