import Mathlib.Data.List.Count
import Mathlib.Data.Set.List
import ScriptedMaze.Proofs.Maze.Footprint

/-!
# Which drawings draw a maze

A grid is drawn in the codes of its cells (`Grid.drawn`), and reading undoes that and
nothing else: trimmed lines are read as a grid exactly if they are the drawing of it
(`Grid.ofLines_eq_ok_iff`). So a drawing is read if there are lines in it, all of one length
and made of codes, and it draws a maze if besides one start is drawn (`Drawing.Sound`).

No code is blank. The drawing of a grid with columns in it has neither blank rows nor
anything to trim, so that it is read as it stands (`Grid.lines_codes`), and a maze can be
written down and read again for ever (`Maze.ofDrawing_iff_sound`).
-/

namespace ScriptedMaze

open List

/-- Numbers that do not matter may be left out. -/
theorem map_zipIdx_eq_map {α β : Type*} {f : α × Nat → β} {g : α → β} {l : List α} {i : Nat}
    (h : ∀ q ∈ l.zipIdx i, f q = g q.1) : (l.zipIdx i).map f = l.map g := by
  conv_rhs => rw [← zipIdx_map_fst i l, map_map]
  exact map_congr_left h

/-! ### Codes -/

namespace Cell

variable {c : Char} {k : Cell}

theorem ofCode?_eq_some_iff : ofCode? c = some k ↔ c = k.code :=
  ⟨fun h => (code_of_ofCode? h).symm, fun h => h ▸ ofCode?_code k⟩

theorem code_injective : Function.Injective code := fun k l h => by
  have hk := ofCode?_code k
  rw [h, ofCode?_code] at hk
  exact (Option.some.inj hk).symm

/-- The codes of cells. -/
def codes : List Char := ['#', '.', 'S', 'F', 'K', 'D']

theorem mem_range_code_iff : c ∈ Set.range code ↔ c ∈ codes := by
  have hcodes : codes = all.map code := rfl
  rw [hcodes, mem_map]
  constructor
  · rintro ⟨k, rfl⟩
    exact ⟨k, by cases k <;> decide, rfl⟩
  · rintro ⟨k, -, hk⟩
    exact ⟨k, hk⟩

theorem isBlank_code (k : Cell) : Text.isBlank k.code = false := by
  cases k <;> decide

end Cell

/-! ### Text that needs no trimming -/

namespace Text

variable {cs : List Char}

theorem dropWhile_isBlank_eq_self (h : ∀ c ∈ cs, isBlank c = false) :
    cs.dropWhile isBlank = cs := by
  cases cs with
  | nil => rfl
  | cons c r => exact dropWhile_cons_of_neg (by simp [h c mem_cons_self])

/-- A text without blank characters is not shortened. -/
theorem trim_eq_self (h : ∀ c ∈ cs, isBlank c = false) : trim cs = cs := by
  rw [trim, dropWhile_isBlank_eq_self h, trimEnd,
    dropWhile_isBlank_eq_self fun c hc => h c (mem_reverse.mp hc), reverse_reverse]

end Text

/-! ### Grids as they are drawn -/

namespace Grid

/-- **The grid in the codes of its cells**, row by row. -/
def drawn (g : Grid) : List (List Char) := g.rows.map fun row => row.map Cell.code

end Grid

namespace Drawing

/-- The character in a column of a line. -/
def at? (ls : List (List Char)) (x y : Nat) : Option Char := ls[y]?.bind fun l => l[x]?

variable {x y width : Nat} {cs : List Char} {ks : List Cell} {ls : List (List Char)}
  {rows : List (List Cell)}

/-- A row is read exactly if it is the drawing of its cells. -/
theorem readRow_eq_ok_iff : readRow y x cs = .ok ks ↔ cs = ks.map Cell.code := by
  induction cs generalizing x ks with
  | nil => cases ks <;> simp [readRow]
  | cons c r ih =>
    rw [readRow]
    cases hc : Cell.ofCode? c with
    | none =>
      refine iff_of_false (by simp) fun h => ?_
      obtain ⟨k, ks, -, hk, -⟩ := map_eq_cons_iff.mp h.symm
      rw [Cell.ofCode?_eq_some_iff.mpr hk.symm] at hc
      cases hc
    | some k =>
      obtain rfl := Cell.ofCode?_eq_some_iff.mp hc
      dsimp only
      constructor
      · intro h
        split at h
        · rename_i ks' hr
          cases h
          rw [map_cons, ← ih.mp hr]
        · cases h
      · intro h
        obtain ⟨k', ks', rfl, hk, hks⟩ := map_eq_cons_iff.mp h.symm
        obtain rfl := Cell.code_injective hk
        rw [ih.mpr hks.symm]

/-- Rows are read exactly if they are the drawing of rows of cells and have the width. -/
theorem readRows_eq_ok_iff :
    readRows width y ls = .ok rows ↔
      ls = rows.map (fun row => row.map Cell.code) ∧ ∀ l ∈ ls, l.length = width := by
  induction ls generalizing y rows with
  | nil => cases rows <;> simp [readRows]
  | cons line rest ih =>
    rw [readRows]
    constructor
    · intro h
      split at h
      · rename_i hw
        split at h
        · cases h
        · rename_i row hrow
          split at h
          · rename_i rows' hrows
            cases h
            obtain ⟨hrest, hwidth⟩ := ih.mp hrows
            rw [map_cons, ← readRow_eq_ok_iff.mp hrow, ← hrest]
            exact ⟨rfl, forall_mem_cons.mpr ⟨hw, hwidth⟩⟩
          · cases h
      · cases h
    · rintro ⟨h, hwidth⟩
      obtain ⟨row, rows', rfl, hrow, hrows⟩ := map_eq_cons_iff.mp h.symm
      obtain ⟨hw, hwidth⟩ := forall_mem_cons.mp hwidth
      rw [if_pos hw, readRow_eq_ok_iff.mpr hrow.symm, ih.mpr ⟨hrows.symm, hwidth⟩]

end Drawing

namespace Grid

variable {g : Grid} {k : Cell} {p : Point} {ls : List (List Char)} {rows : List String}

theorem drawn_ne_nil (g : Grid) : g.drawn ≠ [] := by
  simpa [drawn] using g.rows_ne_nil

theorem length_of_mem_drawn {l : List Char} (h : l ∈ g.drawn) : l.length = g.width := by
  obtain ⟨row, hrow, rfl⟩ := mem_map.mp h
  rw [length_map, g.length_eq_width row hrow]

theorem drawn_injective : Function.Injective drawn := fun _ _ h =>
  rows_injective (map_injective_iff.mpr (map_injective_iff.mpr Cell.code_injective) h)

/-- **Trimmed lines are read as a grid exactly if they are the drawing of it.** -/
theorem ofLines_eq_ok_iff : ofLines ls = .ok g ↔ ls = g.drawn := by
  unfold ofLines
  split
  · exact iff_of_false (by simp) fun h => g.drawn_ne_nil h.symm
  · rename_i first rest
    split
    · rename_i f hr
      refine iff_of_false (by simp) fun h => ?_
      have hwidth : ∀ l ∈ first :: rest, l.length = first.length := fun l hl => by
        rw [length_of_mem_drawn (h ▸ hl), length_of_mem_drawn (g := g) (h ▸ mem_cons_self)]
      cases hr.symm.trans (Drawing.readRows_eq_ok_iff.mpr ⟨h, hwidth⟩)
    · rename_i rows hr
      have hdrawn := (Drawing.readRows_eq_ok_iff.mp hr).1
      rw [Except.ok.injEq, ← drawn_injective.eq_iff]
      exact Eq.congr_left hdrawn.symm

theorem ofDrawing_eq_ok_iff : ofDrawing rows = .ok g ↔ Drawing.lines rows = g.drawn :=
  ofLines_eq_ok_iff

/-- Rows of codes are what rows of cells are drawn as. -/
theorem exists_map_code_eq_iff :
    (∃ rows : List (List Cell), rows.map (fun row => row.map Cell.code) = ls) ↔
      ∀ l ∈ ls, ∀ c ∈ l, c ∈ Cell.codes := by
  change ls ∈ Set.range (map (map Cell.code)) ↔ _
  simp only [Set.range_list_map, Set.mem_ofPred_eq, Cell.mem_range_code_iff]

/-- Lines are the drawing of a grid if there are any, all of one length and made of codes. -/
theorem exists_eq_drawn_iff :
    (∃ g : Grid, ls = g.drawn) ↔
      ls ≠ [] ∧ (∀ l ∈ ls, ∀ l' ∈ ls, l.length = l'.length) ∧
        ∀ l ∈ ls, ∀ c ∈ l, c ∈ Cell.codes := by
  constructor
  · rintro ⟨g, rfl⟩
    refine ⟨g.drawn_ne_nil, fun l hl l' hl' => ?_, exists_map_code_eq_iff.mp ⟨g.rows, rfl⟩⟩
    rw [length_of_mem_drawn hl, length_of_mem_drawn hl']
  · rintro ⟨hne, hlen, hcode⟩
    obtain ⟨rows, rfl⟩ := exists_map_code_eq_iff.mpr hcode
    obtain ⟨first, hfirst⟩ := exists_mem_of_ne_nil _ hne
    refine ⟨⟨first.length, rows, fun h => hne (by rw [h, map_nil]), fun r hr => ?_⟩, rfl⟩
    rw [← length_map Cell.code]
    exact hlen _ (mem_map_of_mem hr) _ hfirst

/-! ### The start that is drawn -/

theorem length_placesInRow (k : Cell) (y : Nat) (row : List Cell) :
    (placesInRow k y row).length = row.count k := by
  rw [placesInRow, length_filterMap_eq_countP, count_eq_countP]
  conv_rhs => rw [← zipIdx_map_fst 0 row, countP_map]
  refine countP_congr fun q _ => ?_
  by_cases hq : q.1 = k <;> simp [hq]

/-- There are as many points at which a kind of cell lies as its code is drawn. -/
theorem length_places (g : Grid) (k : Cell) :
    (g.places k).length = g.drawn.flatten.count k.code := by
  have hrows : (g.places k).length = g.rows.flatten.count k := by
    rw [places, length_flatMap, count_flatten]
    exact congrArg sum (map_zipIdx_eq_map fun q _ => length_placesInRow k q.2 q.1)
  rw [hrows, drawn, ← map_flatten, count_map_of_injective _ _ Cell.code_injective]

/-- A kind of cell lies where its code is drawn. -/
theorem exists_of_mem_places (h : p ∈ g.places k) :
    ∃ x y : Nat, p = ⟨x, y⟩ ∧ Drawing.at? g.drawn x y = some k.code := by
  simp only [places, mem_flatMap, Prod.exists, mem_zipIdx_iff_getElem?, mem_placesInRow] at h
  obtain ⟨row, y, hrow, hy, x, hx, hk⟩ := h
  refine ⟨x, y, ?_, ?_⟩
  · rw [← hx, ← hy]
  · rw [Drawing.at?, drawn, getElem?_map, hrow, Option.map_some, Option.bind_some, getElem?_map, hk]
    rfl

theorem start_eq_ok_iff : g.start = .ok p ↔ g.places .start = [p] := by
  unfold start
  split <;> rename_i h <;> simp [h]

/-- A grid has a start exactly if one is drawn. -/
theorem exists_start_iff : (∃ p, g.start = .ok p) ↔ g.drawn.flatten.count 'S' = 1 := by
  simp only [start_eq_ok_iff]
  rw [← length_eq_one_iff, length_places]
  rfl

/-! ### Reading what was written -/

theorem codes_eq_map_drawn (g : Grid) : g.codes = g.drawn.map String.ofList := by
  rw [codes, drawn, map_map]
  rfl

end Grid

namespace Drawing

/-- Lines that are not empty, and in which nothing is blank, are read as they stand. -/
theorem lines_map_ofList
    (h : ∀ l ∈ ls, l ≠ [] ∧ ∀ c ∈ l, Text.isBlank c = false) :
    lines (ls.map String.ofList) = ls := by
  have htrim : (ls.map String.ofList).map (fun row => Text.trim row.toList) = ls := by
    rw [map_map]
    refine (map_congr_left fun l hl => ?_).trans (map_id ls)
    rw [Function.comp_apply, String.toList_ofList, Text.trim_eq_self (h l hl).2, id]
  rw [lines, htrim, filter_eq_self]
  intro l hl
  simpa using (h l hl).1

end Drawing

namespace Grid

/-- **A grid with columns is read from its codes.** -/
theorem lines_codes {g : Grid} (h : 0 < g.width) : Drawing.lines g.codes = g.drawn := by
  rw [codes_eq_map_drawn]
  refine Drawing.lines_map_ofList fun l hl => ⟨fun hnil => ?_, fun c hc => ?_⟩
  · have hlen := length_of_mem_drawn hl
    rw [hnil, length_nil] at hlen
    omega
  · obtain ⟨row, -, rfl⟩ := mem_map.mp hl
    obtain ⟨k, -, rfl⟩ := mem_map.mp hc
    exact k.isBlank_code

end Grid

/-! ### Mazes -/

namespace Drawing

/-- **Lines that draw a maze**: there are some, all of one length and made of codes, and one
start is among them. -/
structure Sound (ls : List (List Char)) : Prop where
  ne_nil : ls ≠ []
  length_eq : ∀ l ∈ ls, ∀ l' ∈ ls, l.length = l'.length
  mem_codes : ∀ l ∈ ls, ∀ c ∈ l, c ∈ Cell.codes
  count_start : ls.flatten.count 'S' = 1

theorem sound_iff : Sound ls ↔ ∃ g : Grid, ls = g.drawn ∧ ∃ p, g.start = .ok p := by
  constructor
  · rintro ⟨hne, hlen, hcodes, hcount⟩
    obtain ⟨g, rfl⟩ := Grid.exists_eq_drawn_iff.mpr ⟨hne, hlen, hcodes⟩
    exact ⟨g, rfl, Grid.exists_start_iff.mpr hcount⟩
  · rintro ⟨g, rfl, hstart⟩
    obtain ⟨hne, hlen, hcodes⟩ := Grid.exists_eq_drawn_iff.mp ⟨g, rfl⟩
    exact ⟨hne, hlen, hcodes, Grid.exists_start_iff.mp hstart⟩

theorem ne_nil_of_mem_lines {rows : List String} {l : List Char} (h : l ∈ lines rows) :
    l ≠ [] := by
  rw [lines, mem_filter] at h
  simpa using h.2

end Drawing

namespace Maze

open Drawing (lines at? Sound)

variable {name hint : String} {rows : List String} {m : Maze} {g : Grid} {p : Point}

theorem ofDrawing_of_start (hlines : lines rows = g.drawn) (hp : g.start = .ok p) :
    ofDrawing name rows hint = .ok ⟨name, hint, g, p⟩ := by
  unfold ofDrawing
  rw [Grid.ofDrawing_eq_ok_iff.mpr hlines]
  change (g.start >>= fun p => _) = _
  rw [hp]
  rfl

/-- **A maze is read from a drawing** of its grid in which its start is drawn, and gets the
name and the hint. -/
theorem ofDrawing_eq_ok_iff :
    ofDrawing name rows hint = .ok m ↔
      lines rows = m.grid.drawn ∧ m.grid.start = .ok m.start ∧ m.name = name ∧ m.hint = hint := by
  constructor
  · intro h
    obtain ⟨hgrid, hstart⟩ := of_ofDrawing h
    have hlines := Grid.ofDrawing_eq_ok_iff.mp hgrid
    have hm : m = ⟨name, hint, m.grid, m.start⟩ :=
      Except.ok.inj (h.symm.trans (ofDrawing_of_start hlines hstart))
    exact ⟨hlines, hstart, congrArg Maze.name hm, congrArg Maze.hint hm⟩
  · rintro ⟨hlines, hstart, rfl, rfl⟩
    exact ofDrawing_of_start hlines hstart

theorem exists_ofDrawing_iff (name : String) (rows : List String) (hint : String) :
    (∃ m, ofDrawing name rows hint = .ok m) ↔ Sound (lines rows) := by
  rw [Drawing.sound_iff]
  constructor
  · rintro ⟨m, hm⟩
    obtain ⟨hlines, hstart, -, -⟩ := ofDrawing_eq_ok_iff.mp hm
    exact ⟨m.grid, hlines, m.start, hstart⟩
  · rintro ⟨g, hlines, p, hp⟩
    exact ⟨⟨name, hint, g, p⟩, ofDrawing_eq_ok_iff.mpr ⟨hlines, hp, rfl, rfl⟩⟩

/-- **A maze on paper as it was drawn**: what is written down are the lines of the drawing,
and it is read as the maze again. -/
structure Redrawn (name : String) (rows : List String) (hint : String) (m : Maze) : Prop where
  name_eq : m.blueprint.name = name
  hint_eq : m.blueprint.hint = hint
  template_eq : m.blueprint.template = (lines rows).map String.ofList
  start_drawn : ∃ x y : Nat, m.blueprint.start = ⟨x, y⟩ ∧ at? (lines rows) x y = some 'S'
  grid_eq : m.blueprint.grid = .ok m.grid
  ofDrawing_eq : Grid.ofDrawing rows = .ok m.grid
  width_eq : m.blueprint.width? = some m.grid.width
  height_eq : m.blueprint.height = m.grid.height
  again : ofDrawing name m.blueprint.template hint = .ok m

theorem redrawn_of_ofDrawing (h : ofDrawing name rows hint = .ok m) :
    Redrawn name rows hint m := by
  obtain ⟨hlines, hstart, rfl, rfl⟩ := ofDrawing_eq_ok_iff.mp h
  obtain ⟨l, hl⟩ := exists_mem_of_ne_nil _ m.grid.drawn_ne_nil
  have hwidth : 0 < m.grid.width := by
    rw [← Grid.length_of_mem_drawn hl]
    exact length_pos_of_ne_nil (Drawing.ne_nil_of_mem_lines (hlines ▸ hl))
  have hcodes := Grid.lines_codes hwidth
  refine ⟨rfl, rfl, ?_, ?_, ?_, ?_, ?_, ?_, ?_⟩
  · rw [hlines]
    exact m.grid.codes_eq_map_drawn
  · rw [hlines]
    refine Grid.exists_of_mem_places (k := .start) ?_
    rw [Grid.start_eq_ok_iff.mp hstart]
    exact mem_singleton_self _
  · exact Grid.ofDrawing_eq_ok_iff.mpr hcodes
  · exact Grid.ofDrawing_eq_ok_iff.mpr hlines
  · obtain ⟨row, rest, hrows⟩ := exists_cons_of_ne_nil m.grid.rows_ne_nil
    have hrow := m.grid.length_eq_width row (hrows ▸ mem_cons_self)
    change (m.grid.codes.head?.map String.length) = _
    rw [Grid.codes, hrows, map_cons, head?_cons, Option.map_some, Grid.rowCode,
      String.length_ofList, length_map, hrow]
  · exact length_map _
  · exact ofDrawing_eq_ok_iff.mpr ⟨hcodes, hstart, rfl, rfl⟩

/-- **The sound drawings are the mazes**: what is left of a drawing when its rows are trimmed
and the blank ones dropped draws a maze exactly if it is sound, and otherwise there is a fault.
A maze is written down as it was drawn, and read again as it was. -/
theorem ofDrawing_iff_sound (name : String) (rows : List String) (hint : String) :
    ((∃ m, ofDrawing name rows hint = .ok m) ↔ Sound (lines rows)) ∧
      (¬Sound (lines rows) → ∃ f, ofDrawing name rows hint = .error f) ∧
      ∀ m, ofDrawing name rows hint = .ok m → Redrawn name rows hint m := by
  refine ⟨exists_ofDrawing_iff name rows hint, fun h => ?_, fun m => redrawn_of_ofDrawing⟩
  cases hm : ofDrawing name rows hint with
  | error f => exact ⟨f, rfl⟩
  | ok m => exact absurd ((exists_ofDrawing_iff name rows hint).mp ⟨m, hm⟩) h

/-- An indented drawing with blank rows. -/
def indented : List String := ["  ", " S.F\t", "", "#KD "]

/-- The indented drawing is sound; one whose rows are not of one length is not. -/
theorem ofDrawing_iff_sound_indented :
    (∃ m, ofDrawing "small" indented "Mind the blanks." = .ok m ∧
      Redrawn "small" indented "Mind the blanks." m) ∧
    ¬Sound (lines ["S.", "#"]) ∧ ∃ f, ofDrawing "torn" ["S.", "#"] "" = .error f := by
  have hlines : lines indented = [['S', '.', 'F'], ['#', 'K', 'D']] := by decide +kernel
  have hsound : Sound (lines indented) := by
    rw [hlines]
    exact ⟨by simp, by simp, by simp [Cell.codes], by decide⟩
  have htorn : ¬Sound (lines ["S.", "#"]) := fun h => absurd h.length_eq (by decide +kernel)
  obtain ⟨m, hm⟩ := (ofDrawing_iff_sound "small" indented "Mind the blanks.").1.mpr hsound
  exact ⟨⟨m, hm, (ofDrawing_iff_sound _ _ _).2.2 m hm⟩, htorn,
    (ofDrawing_iff_sound _ _ _).2.1 htorn⟩

end Maze

end ScriptedMaze
