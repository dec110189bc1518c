import ScriptedMaze.Maze.Picture
import ScriptedMaze.Proofs.Maze.Drawn
import ScriptedMaze.Proofs.Script.Lines
import ScriptedMaze.Terminal.Tool

/-!
# Pictures that are read as mazes

A picture of a grid is a drawing of it whose cells are set apart: row by row the codes of the
cells, with the separator between the cells and a line feed between the rows (`laidOut`). With
spaces for a separator, the picture can be put in a file and the file be read as a maze, and
it is the maze of the grid (`Grid.readMaze_picture`). Nothing in a picture ends a line but the
line feeds, no line of it is empty if the grid has columns, and of a line nothing is left but
the codes once its spaces are dropped.

The robot has a symbol that no cell has. Where it stands is one place of the picture, the same
one in all pictures of grids of one size: what stands before a row or a cell, and what stands
behind it, does not depend on it (`intercalate_append_cons`).
-/

namespace ScriptedMaze

open List

/-! ### Texts with separators -/

section Separators

variable {α β : Type*} {sep l : List α} {ls : List (List α)} {f : α × Nat → β} {g : α → β}

/-- An element is between those before it and those behind it. -/
theorem exists_append_cons_of_getElem? {k : α} {i : Nat} (h : l[i]? = some k) :
    ∃ a b, l = a ++ k :: b ∧ a.length = i := by
  obtain ⟨hi, rfl⟩ := List.getElem?_eq_some_iff.mp h
  refine ⟨l.take i, l.drop (i + 1), ?_, length_take_of_le hi.le⟩
  rw [getElem_cons_drop, take_append_drop]

/-- Where the place matters for one element alone, the others are treated alike. -/
theorem map_zipIdx_append_cons {a : List α} {k : α} {b : List α}
    (h : ∀ q, q.2 ≠ a.length → f q = g q.1) :
    (a ++ k :: b).zipIdx.map f = a.map g ++ f (k, a.length) :: b.map g := by
  have hbefore : a.zipIdx.map f = a.map g :=
    map_zipIdx_eq_map fun q hq => h q (Nat.ne_of_lt (snd_lt_of_mem_zipIdx hq))
  have hbehind : (b.zipIdx (a.length + 1)).map f = b.map g :=
    map_zipIdx_eq_map fun q hq => h q (Nat.ne_of_gt (le_snd_of_mem_zipIdx hq))
  rw [zipIdx_append, map_append, Nat.zero_add, zipIdx_cons, map_cons, hbefore, hbehind]

/-- **What is around a piece of a text with separators** is made of the other pieces. -/
theorem intercalate_append_cons (sep l : List α) (before after : List (List α)) :
    sep.intercalate (before ++ l :: after) =
      before.flatMap (· ++ sep) ++ l ++ after.flatMap (sep ++ ·) := by
  induction before with
  | nil =>
    induction after generalizing l with
    | nil => simp
    | cons l' after ih =>
      have ih' := ih l'
      rw [nil_append] at ih'
      rw [nil_append, intercalate_cons_cons, ih']
      simp
  | cons l' before ih =>
    rw [cons_append, intercalate_cons_of_ne_nil (by simp), ih]
    simp

theorem length_flatMap_of_forall {w : Nat} {f : α → List β} (h : ∀ k ∈ l, (f k).length = w) :
    (l.flatMap f).length = l.length * w := by
  rw [length_flatMap, map_congr_left h, map_const', sum_replicate_nat]

/-- What is in a text with separators is in them or in a piece. -/
theorem mem_or_mem_of_mem_intercalate {k : α} (h : k ∈ sep.intercalate ls) :
    k ∈ sep ∨ ∃ l ∈ ls, k ∈ l := by
  induction ls with
  | nil => cases h
  | cons l ls ih =>
    rcases eq_or_ne ls [] with rfl | hne
    · rw [intercalate_singleton] at h
      exact .inr ⟨l, mem_cons_self, h⟩
    · rw [intercalate_cons_of_ne_nil hne, mem_append, mem_append] at h
      rcases h with (h | h) | h
      · exact .inr ⟨l, mem_cons_self, h⟩
      · exact .inl h
      · exact (ih h).imp_right fun ⟨l', hl', hk⟩ => ⟨l', mem_cons_of_mem l hl', hk⟩

end Separators

/-- Characters with a separator between them. -/
def spaced (sep cs : List Char) : List Char := sep.intercalate (cs.map fun c => [c])

/-- Rows of characters, with a separator between the characters and a line feed between the
rows. -/
def laidOut (sep : List Char) (ls : List (List Char)) : List Char :=
  ['\n'].intercalate (ls.map (spaced sep))

variable {sep cs : List Char} {ls : List (List Char)}

theorem spaced_append_cons (sep a : List Char) (c : Char) (b : List Char) :
    spaced sep (a ++ c :: b) = a.flatMap (· :: sep) ++ c :: b.flatMap (sep ++ [·]) := by
  rw [spaced, map_append, map_cons, intercalate_append_cons, flatMap_map, flatMap_map,
    append_assoc, singleton_append]
  rfl

theorem spaced_cons (sep : List Char) (c : Char) (cs : List Char) :
    spaced sep (c :: cs) = c :: cs.flatMap (sep ++ [·]) :=
  spaced_append_cons sep [] c cs

theorem length_spaced (sep : List Char) (c : Char) (cs : List Char) :
    (spaced sep (c :: cs)).length = cs.length * (sep.length + 1) + 1 := by
  have hlen : ∀ c ∈ cs, (sep ++ [c]).length = sep.length + 1 := fun _ _ => length_append
  rw [spaced_cons, length_cons, length_flatMap_of_forall hlen]

/-- **What is left of a row without its spaces are its characters.** -/
theorem filter_spaced (hsep : ∀ c ∈ sep, c = ' ') (hcs : ' ' ∉ cs) :
    (spaced sep cs).filter (· ≠ ' ') = cs := by
  have hblank : sep.filter (· ≠ ' ') = [] :=
    filter_eq_nil_iff.mpr fun c hc => by simp [hsep c hc]
  have hbehind : ∀ b : List Char, ' ' ∉ b → (b.flatMap (sep ++ [·])).filter (· ≠ ' ') = b := by
    intro b hb
    induction b with
    | nil => rfl
    | cons c b ih =>
      obtain ⟨hc, hb⟩ := ne_and_not_mem_of_not_mem_cons hb
      rw [flatMap_cons, filter_append, filter_append, hblank, ih hb, nil_append,
        filter_cons_of_pos (by simpa using Ne.symm hc)]
      rfl
  cases cs with
  | nil => rfl
  | cons c cs =>
    obtain ⟨hc, hcs⟩ := ne_and_not_mem_of_not_mem_cons hcs
    rw [spaced_cons, filter_cons_of_pos (by simpa using Ne.symm hc), hbehind cs hcs]

theorem mem_or_mem_of_mem_spaced {c : Char} (h : c ∈ spaced sep cs) : c ∈ sep ∨ c ∈ cs := by
  refine (mem_or_mem_of_mem_intercalate h).imp_right ?_
  rintro ⟨l, hl, hc⟩
  obtain ⟨d, hd, rfl⟩ := mem_map.mp hl
  rwa [mem_singleton.mp hc]

theorem laidOut_append_cons (sep a b : List Char) (c : Char) (above below : List (List Char)) :
    laidOut sep (above ++ (a ++ c :: b) :: below) =
      (above.map (spaced sep)).flatMap (· ++ ['\n']) ++ a.flatMap (· :: sep) ++
        c :: (b.flatMap (sep ++ [·]) ++ (below.map (spaced sep)).flatMap (['\n'] ++ ·)) := by
  rw [laidOut, map_append, map_cons, intercalate_append_cons, spaced_append_cons]
  simp only [append_assoc, cons_append]

/-! ### Lines that are read from a file -/

namespace Text

theorem linesFrom_append (h : ∀ c ∈ cs, endsLine c = false) (line rest : List Char) :
    linesFrom line (cs ++ rest) = linesFrom (cs.reverse ++ line) rest := by
  induction cs generalizing line with
  | nil => rfl
  | cons c cs ih =>
    obtain ⟨hc, hcs⟩ := forall_mem_cons.mp h
    rw [cons_append, linesFrom, if_neg (by simp [hc]), ih hcs, reverse_cons, append_assoc]
    · rfl
    · rintro r rfl
      cases hc

/-- **Lines that are not empty are read from their text.** -/
theorem linesFrom_intercalate (h : ∀ l ∈ ls, l ≠ [] ∧ ∀ c ∈ l, endsLine c = false) :
    linesFrom [] (['\n'].intercalate ls) = ls := by
  induction ls with
  | nil => rfl
  | cons l ls ih =>
    obtain ⟨⟨hl, hends⟩, hls⟩ := forall_mem_cons.mp h
    rcases eq_or_ne ls [] with rfl | hne
    · have hlast := linesFrom_append hends [] []
      rw [append_nil, append_nil] at hlast
      rw [intercalate_singleton, hlast, linesFrom, if_neg (by simpa using hl), reverse_reverse]
    · rw [intercalate_cons_of_ne_nil hne, append_assoc, linesFrom_append hends, append_nil]
      change linesFrom l.reverse ('\n' :: ['\n'].intercalate ls) = _
      rw [linesFrom, if_pos (by decide), ih hls, reverse_reverse]
      · rintro r h'
        cases h'

end Text

namespace Terminal.Disk

/-- **A text whose lines end with line feeds is read as it was written.** -/
theorem readText_of_eq {disk : Disk} {path text : String} (h : disk path = .ok text.toUTF8)
    (hreturn : '\r' ∉ text.toList) : disk.readText path = .ok text := by
  have hdecoded : String.fromUTF8? text.toUTF8 = some text := by
    unfold String.fromUTF8?
    rw [String.toUTF8_eq_toByteArray, dif_pos text.isValidUTF8]
    rfl
  unfold readText
  rw [h]
  dsimp only [bind, Except.bind]
  rw [hdecoded]
  dsimp only
  rw [Script.unifyLineEnds_of_not_mem hreturn, String.ofList_toList]
  rfl

end Terminal.Disk

/-! ### Pictures -/

/-- In a picture a cell usually looks as it does in a drawing. -/
theorem Cell.toList_symbol (k : Cell) : k.symbol.toList = [k.code] := by
  cases k <;> rfl

namespace Grid

variable {g : Grid} {robot : Option Point} {p r : Point} {row : List Cell} {x y : Nat}

/-- The characters of row `y` of a picture. -/
def marks (robot : Option Point) (y : Nat) (row : List Cell) : List Char :=
  row.zipIdx.map fun (k, x) => if robot = some ⟨x, y⟩ then '@' else k.code

/-- The characters of a picture, row by row. -/
def marked (g : Grid) (robot : Option Point) : List (List Char) :=
  g.rows.zipIdx.map fun (row, y) => marks robot y row

/-- **A picture is its characters, laid out.** -/
theorem toList_picture (g : Grid) (robot : Option Point) (sep : String) :
    (g.picture robot sep).toList = laidOut sep.toList (g.marked robot) := by
  have hrow : ∀ y row, (sep.intercalate (rowSymbols {} robot y row)).toList =
      spaced sep.toList (marks robot y row) := by
    intro y row
    rw [String.toList_intercalate, spaced, marks, rowSymbols, map_map, map_map]
    congr 2
    funext q
    simp only [Function.comp_apply]
    split
    · rfl
    · exact q.1.toList_symbol
  rw [picture, String.toList_intercalate, laidOut, marked, map_map, map_map]
  simp only [Function.comp_def, hrow]
  rfl

/-- A row in which the robot does not stand is drawn in the codes of its cells. -/
theorem marks_of_forall_ne (h : ∀ x < row.length, robot ≠ some ⟨x, y⟩) :
    marks robot y row = row.map Cell.code :=
  map_zipIdx_eq_map fun q hq => if_neg (h q.2 (snd_lt_of_mem_zipIdx hq))

/-- **A picture without the robot, or with the robot outside, is the drawing.** -/
theorem marked_of_not_contains (h : ∀ r, robot = some r → g.contains r = false) :
    g.marked robot = g.drawn := by
  refine map_zipIdx_eq_map fun q hq => marks_of_forall_ne fun x hx hr => ?_
  have hy : q.2 < g.rows.length := snd_lt_of_mem_zipIdx hq
  rw [length_of_row (mem_zipIdx_iff_getElem?.mp hq)] at hx
  refine absurd (h _ hr) (Bool.ne_false_iff.mpr (contains_iff.mpr ?_))
  rw [height]
  dsimp only
  omega

theorem marked_none (g : Grid) : g.marked none = g.drawn :=
  marked_of_not_contains (by simp)

/-- **The robot takes the place of the code of its cell.** -/
theorem exists_marked_of_contains (h : g.contains r = true) :
    ∃ k above a b below, g.cell? r = some k ∧
      above.length = r.y.toNat ∧ a.length = r.x.toNat ∧
      g.drawn = above ++ (a ++ k.code :: b) :: below ∧
      g.marked (some r) = above ++ (a ++ '@' :: b) :: below := by
  obtain ⟨hx0, -, hy0, -⟩ := contains_iff.mp h
  obtain ⟨row, hrow⟩ := exists_row h
  obtain ⟨k, hk⟩ := exists_cell h
  have hcell := hk
  rw [cell?_of_row h hrow] at hcell
  obtain ⟨above, below, hrows, hy⟩ := exists_append_cons_of_getElem? hrow
  obtain ⟨a, b, rfl, hx⟩ := exists_append_cons_of_getElem? hcell
  have hmarks : marks (some r) above.length (a ++ k :: b) =
      a.map Cell.code ++ '@' :: b.map Cell.code := by
    have hat : r = ⟨a.length, above.length⟩ := by
      rw [hx, hy, Int.toNat_of_nonneg hx0, Int.toNat_of_nonneg hy0]
    rw [marks, map_zipIdx_append_cons (g := Cell.code)]
    · dsimp only
      rw [if_pos (congrArg some hat)]
    · intro q hq
      refine if_neg fun hr => hq ?_
      rw [hat] at hr
      have hrx := congrArg Point.x (Option.some.inj hr)
      dsimp only at hrx
      omega
  refine ⟨k, above.map (map Cell.code), a.map Cell.code, b.map Cell.code,
    below.map (map Cell.code), hk, by rw [length_map, hy], by rw [length_map, hx], ?_, ?_⟩
  · rw [drawn, hrows, map_append, map_cons, map_append, map_cons]
  · rw [marked, hrows, map_zipIdx_append_cons (g := map Cell.code)]
    · dsimp only
      rw [hmarks]
    · intro q hq
      refine marks_of_forall_ne fun x _ hr => hq ?_
      have hry := congrArg Point.y (Option.some.inj hr)
      dsimp only at hry
      omega

/-- The length of a line of a picture whose separators have `n` characters. -/
def lineLength (g : Grid) (n : Nat) : Nat := (g.width - 1) * (n + 1) + 1

theorem length_of_mem_map_spaced {l sep : List Char} (hwidth : 0 < g.width)
    (h : l ∈ g.drawn.map (spaced sep)) : l.length = g.lineLength sep.length := by
  obtain ⟨cs, hcs, rfl⟩ := mem_map.mp h
  have hlen := length_of_mem_drawn hcs
  cases cs with
  | nil =>
    rw [← hlen] at hwidth
    cases hwidth
  | cons c cs => rw [length_spaced, lineLength, ← hlen, length_cons, Nat.add_sub_cancel]

/-- **A robot in the grid changes one character of the picture**, that of its cell. -/
theorem exists_picture_of_contains (h : g.contains r = true) (sep : String) :
    ∃ k before after, g.cell? r = some k ∧
      (g.picture none sep).toList = before ++ k.code :: after ∧
      (g.picture (some r) sep).toList = before ++ '@' :: after ∧
      before.length =
        r.y.toNat * (g.lineLength sep.length + 1) + r.x.toNat * (sep.length + 1) := by
  obtain ⟨k, above, a, b, below, hk, hy, hx, hdrawn, hmarked⟩ := exists_marked_of_contains h
  have hwidth : 0 < g.width := by
    have := contains_iff.mp h
    omega
  have hnone := toList_picture g none sep
  rw [marked_none, hdrawn, laidOut_append_cons] at hnone
  have hsome := toList_picture g (some r) sep
  rw [hmarked, laidOut_append_cons] at hsome
  refine ⟨k, _, _, hk, hnone, hsome, ?_⟩
  have habove : ∀ l ∈ above.map (spaced sep.toList),
      (l ++ ['\n']).length = g.lineLength sep.toList.length + 1 := by
    intro l hl
    have hmem : l ∈ g.drawn.map (spaced sep.toList) := by
      rw [hdrawn, map_append]
      exact mem_append_left _ hl
    rw [length_append, length_of_mem_map_spaced hwidth hmem, length_singleton]
  rw [length_append, length_flatMap_of_forall habove, length_map, hy,
    length_flatMap_of_forall fun _ _ => length_cons, hx, String.length_toList]

theorem picture_of_not_contains (h : g.contains r = false) (sep : String) :
    g.picture (some r) sep = g.picture none sep := by
  refine String.toList_injective ?_
  rw [toList_picture, toList_picture, marked_none,
    marked_of_not_contains fun r' hr' => by rwa [← Option.some.inj hr']]

/-! ### Pictures in files -/

theorem endsLine_of_mem_spaced {l sep : List Char} {c : Char} (hsep : ∀ c ∈ sep, c = ' ')
    (hl : l ∈ g.drawn) (hc : c ∈ spaced sep l) : Text.endsLine c = false := by
  rcases mem_or_mem_of_mem_spaced hc with hc | hc
  · rw [hsep c hc]
    decide
  · obtain ⟨row, -, rfl⟩ := mem_map.mp hl
    obtain ⟨k, -, rfl⟩ := mem_map.mp hc
    cases k <;> decide

/-- The lines of a picture are the rows of the drawing, spaced. -/
theorem linesOf_picture {sep : String} (hwidth : 0 < g.width)
    (hsep : ∀ c ∈ sep.toList, c = ' ') :
    Text.linesOf (g.picture none sep) =
      g.drawn.map fun l => String.ofList (spaced sep.toList l) := by
  rw [Text.linesOf, toList_picture, marked_none, laidOut,
    Text.linesFrom_intercalate, map_map]
  · rfl
  · intro l hl
    refine ⟨fun hnil => ?_, ?_⟩
    · have hlen := length_of_mem_map_spaced hwidth hl
      rw [hnil] at hlen
      cases hlen
    · obtain ⟨cs, hcs, rfl⟩ := mem_map.mp hl
      exact fun c hc => endsLine_of_mem_spaced hsep hcs hc

/-- **Without the spaces, the lines of a picture are the codes of the grid.** -/
theorem ofFile_picture {sep path hint : String} (hwidth : 0 < g.width)
    (hstart : g.start = .ok p) (hsep : ∀ c ∈ sep.toList, c = ' ') :
    Maze.ofFile path (g.picture none sep) hint = .ok ⟨fileStem path, hint, g, p⟩ := by
  have hrows : (Text.linesOf (g.picture none sep)).map
      (fun line => String.ofList (line.toList.filter (· ≠ ' '))) = g.codes := by
    rw [linesOf_picture hwidth hsep, map_map, codes_eq_map_drawn]
    refine map_congr_left fun l hl => ?_
    have hspace : ' ' ∉ l := by
      intro hmem
      obtain ⟨row, -, rfl⟩ := mem_map.mp hl
      obtain ⟨k, -, hk⟩ := mem_map.mp hmem
      have hblank := k.isBlank_code
      rw [hk] at hblank
      cases hblank
    rw [Function.comp_apply, String.toList_ofList, filter_spaced hsep hspace]
  rw [Maze.ofFile, hrows]
  exact Maze.ofDrawing_of_start (lines_codes hwidth) hstart

/-- A picture is read from a file as it was written. -/
theorem readText_picture {disk : Terminal.Disk} {path sep : String}
    (hsep : ∀ c ∈ sep.toList, c = ' ')
    (hdisk : disk path = .ok (g.picture none sep).toUTF8) :
    disk.readText path = .ok (g.picture none sep) := by
  have hreturn : '\r' ∉ (g.picture none sep).toList := by
    rw [toList_picture, marked_none]
    intro hmem
    rcases mem_or_mem_of_mem_intercalate hmem with hmem | ⟨l, hl, hmem⟩
    · cases mem_singleton.mp hmem
    · obtain ⟨cs, hcs, rfl⟩ := mem_map.mp hl
      cases endsLine_of_mem_spaced hsep hcs hmem
  exact Terminal.Disk.readText_of_eq hdisk hreturn

/-- **A grid that is put on a disk as a picture is read as a maze again.** The picture of a grid
with columns and one start, its cells set apart by spaces or by nothing, is the file of a maze
of that grid, which starts at the start that is drawn. A robot in the grid is one character of
the picture, and one outside is none. -/
theorem readMaze_picture (g : Grid) (start : Point) (sep : String) (hwidth : 0 < g.width)
    (hstart : g.places .start = [start]) (hsep : ∀ c ∈ sep.toList, c = ' ') :
    (∀ (disk : Terminal.Disk) (path hint : String),
        disk (Terminal.Disk.cleanPath path) = .ok (g.picture none sep).toUTF8 →
        disk.readText (Terminal.Disk.cleanPath path) = .ok (g.picture none sep) ∧
        Maze.ofFile path (g.picture none sep) hint = .ok ⟨fileStem path, hint, g, start⟩ ∧
        Terminal.readMaze disk path = .ok ⟨fileStem path, "", g, start⟩ ∧
        (⟨fileStem path, hint, g, start⟩ : Maze).blueprint.grid = .ok g) ∧
      (∀ r, g.contains r = true → ∃ k before after, g.cell? r = some k ∧ k.code ≠ '@' ∧
        (g.picture none sep).toList = before ++ k.code :: after ∧
        (g.picture (some r) sep).toList = before ++ '@' :: after ∧
        before.length =
          r.y.toNat * (g.lineLength sep.length + 1) + r.x.toNat * (sep.length + 1)) ∧
      ∀ r, g.contains r = false → g.picture (some r) sep = g.picture none sep := by
  refine ⟨fun disk path hint hdisk => ?_, fun r hr => ?_, fun r hr => ?_⟩
  · have hread := readText_picture hsep hdisk
    have hmaze : ∀ hint, Maze.ofFile path (g.picture none sep) hint =
        .ok ⟨fileStem path, hint, g, start⟩ := fun hint =>
      ofFile_picture hwidth (start_eq_ok_iff.mpr hstart) hsep
    refine ⟨hread, hmaze hint, ?_, ofDrawing_eq_ok_iff.mpr (lines_codes hwidth)⟩
    unfold Terminal.readMaze
    rw [hread]
    change (Maze.ofFile path (g.picture none sep)).mapError _ = _
    rw [hmaze]
    rfl
  · obtain ⟨k, before, after, hk, hnone, hsome, hlen⟩ := exists_picture_of_contains hr sep
    exact ⟨k, before, after, hk, by cases k <;> decide, hnone, hsome, hlen⟩
  · exact picture_of_not_contains hr sep

/-- The easy maze, saved with its cells set apart. -/
def savedEasy : Terminal.Disk :=
  Terminal.Disk.ofFiles [("saved/easy.txt", (Preset.easy.maze.grid.picture none " ").toUTF8)]

/-- The easy maze is read from the disk, and the robot on the key is one character of its
picture. -/
theorem readMaze_picture_easy :
    Terminal.readMaze savedEasy "saved//easy.txt" =
        .ok ⟨"easy", "", Preset.easy.maze.grid, ⟨1, 1⟩⟩ ∧
      (∃ k before after, Preset.easy.maze.grid.cell? ⟨3, 1⟩ = some k ∧ k.code ≠ '@' ∧
        (Preset.easy.maze.grid.picture none " ").toList = before ++ k.code :: after ∧
        (Preset.easy.maze.grid.picture (some ⟨3, 1⟩) " ").toList = before ++ '@' :: after ∧
        before.length = 1 * (Preset.easy.maze.grid.lineLength 1 + 1) + 3 * (1 + 1)) ∧
      Preset.easy.maze.grid.picture (some ⟨-1, 0⟩) " " =
        Preset.easy.maze.grid.picture none " " := by
  have hdisk : savedEasy (Terminal.Disk.cleanPath "saved//easy.txt") =
      .ok (Preset.easy.maze.grid.picture none " ").toUTF8 := by
    decide +kernel
  have hstem : fileStem "saved//easy.txt" = "easy" := by decide +kernel
  have hspace : " ".toList = [' '] := by decide +kernel
  obtain ⟨hload, hinside, houtside⟩ := readMaze_picture Preset.easy.maze.grid ⟨1, 1⟩ " "
    (by decide +kernel) (by decide +kernel) (by simp [hspace])
  refine ⟨?_, hinside ⟨3, 1⟩ (by decide +kernel), houtside ⟨-1, 0⟩ (by decide +kernel)⟩
  have hread := (hload savedEasy "saved//easy.txt" "" hdisk).2.2.1
  rwa [hstem] at hread

end Grid

end ScriptedMaze
