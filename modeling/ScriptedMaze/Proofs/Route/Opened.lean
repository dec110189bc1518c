import ScriptedMaze.Proofs.Maze.Footprint
import ScriptedMaze.Proofs.Route.Shortest

/-!
# Taking a key or opening a door closes no way

Of two worlds that a maze has come to, with the robot at the same point, let all that is opened
in the one be opened in the other as well (`World.Opened`). Then the other **keeps up** with the
one (`World.KeepsUp`): whatever moves are made in both, as long as none is blocked in the one.

What has to be compared are not the grids, which stay different for as long as it takes. A robot
that has gone through a door holds a key, and so the only thing that bars it anywhere but a wall
is a door as it was drawn, if it holds no key (`World.Footprint.blocked_eq_false_iff`). And it
holds a key exactly if it has entered one, so that whoever has entered more of them is barred by
less.

So moves lead alike from both worlds (`World.LeadAlike`), and no way to a flag is longer from the
world in which more is opened (`World.leadAlike_of_opened`).
-/

namespace ScriptedMaze

namespace World

variable {g : Grid} {vs us : List Point} {s t w : World} {p : Point} {d : Direction}
  {ds : List Direction}

/-- **What is opened in a world**: a key was taken or a door was opened at the point, where the
grid was drawn with one, and there is a floor now. -/
structure Opened (g : Grid) (w : World) (p : Point) : Prop where
  inside : g.contains p = true
  drawn : ∃ k, g.cell? p = some k ∧ k.isTaken = true
  floor : w.grid.cell? p = some .floor

/-- No move of the list is blocked. -/
def Passes (w : World) : List Direction → Prop
  | [] => True
  | d :: ds => (w.move d).2 ≠ .blocked ∧ Passes (w.move d).1 ds

/-! ### What bars a robot -/

namespace Footprint

/-- Opened is what was entered. -/
theorem opened_iff (h : Footprint g vs w) :
    w.Opened g p ↔ g.contains p = true ∧ p ∈ vs ∧ ∃ k, g.cell? p = some k ∧ k.isTaken = true := by
  constructor
  · rintro ⟨hin, ⟨k, hk, htaken⟩, hfloor⟩
    refine ⟨hin, ?_, k, hk, htaken⟩
    by_contra hnot
    have hstill := (Grid.cell?_cleared_taken_iff hin htaken).mpr ⟨hk, hnot⟩
    rw [h.grid, hstill] at hfloor
    cases hfloor
    cases htaken
  · rintro ⟨hin, hmem, k, hk, htaken⟩
    refine ⟨hin, ⟨k, hk, htaken⟩, ?_⟩
    rw [h.grid, Grid.cell?_cleared hin, hk, Option.map_some, if_pos ⟨hmem, htaken⟩]

/-- **A robot is barred by walls, and by the doors of the drawing if it holds no key.** -/
theorem blocked_eq_false_iff (h : Footprint g vs w) :
    w.blocked p = false ↔ g.contains p = true ∧ g.cell? p ≠ some .wall ∧
      (g.cell? p = some .door → w.hasKey = true) := by
  have hcontains : w.grid.contains p = g.contains p := Grid.contains_congr h.width h.height p
  unfold blocked
  rw [hcontains]
  by_cases hin : g.contains p = true
  · obtain ⟨k, hk⟩ := Grid.exists_cell hin
    have hcell : w.grid.cell? p = some (if p ∈ vs ∧ k.isTaken then .floor else k) := by
      rw [h.grid, Grid.cell?_cleared hin, hk, Option.map_some]
    rw [if_pos hin, hcell, hk]
    cases k with
    | door =>
      by_cases hmem : p ∈ vs
      · -- the door was gone through, and with a key
        have hkey : w.hasKey = true := h.hasKey_iff.mpr (h.exists_key hmem hk)
        simp [Cell.isTaken, hmem, hin, hkey]
      · simp [hmem, hin]
    | key => by_cases hmem : p ∈ vs <;> simp [Cell.isTaken, hmem, hin]
    | wall => simp [Cell.isTaken]
    | floor => simp [Cell.isTaken, hin]
    | start => simp [Cell.isTaken, hin]
    | flag => simp [Cell.isTaken, hin]
  · simp [hin]

theorem move_ne_blocked_iff (h : Footprint g vs w) :
    (w.move d).2 ≠ .blocked ↔ g.contains (w.target d) = true ∧
      g.cell? (w.target d) ≠ some .wall ∧
        (g.cell? (w.target d) = some .door → w.hasKey = true) := by
  rw [← h.blocked_eq_false_iff]
  rcases w.move_cases d with ⟨hb, hm⟩ | ⟨hb, -, w', e, hm, -⟩
  · rw [hm, hb]
    simp
  · rw [hm, hb]
    simp

/-- A move that is not blocked enters the point to which it leads. -/
theorem enteredBy_eq (hd : (w.move d).2 ≠ .blocked) : w.enteredBy d = [w.target d] := by
  unfold enteredBy
  rw [if_neg hd]
  rcases w.move_cases d with ⟨-, hm⟩ | ⟨-, -, w', e, hm, hent⟩
  · rw [hm] at hd
    exact absurd rfl hd
  · rw [hm, hent.robot]

/-- **A flag is reached where one is drawn.** -/
theorem flagReached_iff (h : Footprint g vs w) (hd : (w.move d).2 ≠ .blocked) :
    (w.move d).2 = .moved .flagReached ↔ g.cell? (w.target d) = some .flag := by
  have hin := (h.move_ne_blocked_iff.mp hd).1
  have hflag : w.grid.cell? (w.target d) = some .flag ↔ g.cell? (w.target d) = some .flag := by
    rw [h.grid, Grid.cell?_cleared_flag_iff hin]
  rw [← hflag]
  rcases w.move_cases d with ⟨-, hm⟩ | ⟨-, -, w', e, hm, hent⟩
  · rw [hm] at hd
    exact absurd rfl hd
  · rw [hm]
    cases hent with
    | key hk => simp [hk]
    | door hk => simp [hk]
    | flag hk => simp [hk]
    | plain hk => rcases hk with hk | hk <;> simp [hk]

end Footprint

/-! ### Keeping up -/

/-- **A world keeps up with another**: both have come of one grid, the robot stands at the same
point, and it holds a key if it does in the other. -/
structure KeepsUp (g : Grid) (s t : World) : Prop where
  exists_footprint : ∃ vs, Footprint g vs s
  exists_footprint' : ∃ us, Footprint g us t
  robot : t.robot = s.robot
  hasKey : s.hasKey = true → t.hasKey = true

/-- **Where all that is opened is opened as well, the key is held as well.** -/
theorem keepsUp_of_opened (hs : Footprint g vs s) (ht : Footprint g us t)
    (hrobot : s.robot = t.robot) (hopened : ∀ p, s.Opened g p → t.Opened g p) :
    KeepsUp g s t where
  exists_footprint := ⟨vs, hs⟩
  exists_footprint' := ⟨us, ht⟩
  robot := hrobot.symm
  hasKey hkey := by
    obtain ⟨p, hp, hdrawn⟩ := hs.hasKey_iff.mp hkey
    have hopen := hs.opened_iff.mpr ⟨hs.inside.2 p hp, hp, .key, hdrawn, rfl⟩
    exact ht.hasKey_iff.mpr ⟨p, (ht.opened_iff.mp (hopened p hopen)).2.1, hdrawn⟩

namespace KeepsUp

theorem target (h : KeepsUp g s t) (d : Direction) : t.target d = s.target d := by
  rw [World.target, World.target, h.robot]

/-- What does not bar the one does not bar the other. -/
theorem move_ne_blocked (h : KeepsUp g s t) (hd : (s.move d).2 ≠ .blocked) :
    (t.move d).2 ≠ .blocked := by
  obtain ⟨vs, hs⟩ := h.exists_footprint
  obtain ⟨us, ht⟩ := h.exists_footprint'
  obtain ⟨hin, hwall, hdoor⟩ := hs.move_ne_blocked_iff.mp hd
  rw [ht.move_ne_blocked_iff, h.target]
  exact ⟨hin, hwall, fun hk => h.hasKey (hdoor hk)⟩

theorem flagReached_iff (h : KeepsUp g s t) (hd : (s.move d).2 ≠ .blocked) :
    (t.move d).2 = .moved .flagReached ↔ (s.move d).2 = .moved .flagReached := by
  obtain ⟨vs, hs⟩ := h.exists_footprint
  obtain ⟨us, ht⟩ := h.exists_footprint'
  rw [hs.flagReached_iff hd, ht.flagReached_iff (h.move_ne_blocked hd), h.target]

/-- Both robots enter the same point. -/
theorem enteredBy_eq (h : KeepsUp g s t) (hd : (s.move d).2 ≠ .blocked) :
    t.enteredBy d = s.enteredBy d := by
  rw [Footprint.enteredBy_eq hd, Footprint.enteredBy_eq (h.move_ne_blocked hd), h.target]

/-- **A world still keeps up after a move** that is not blocked in the other. -/
theorem move (h : KeepsUp g s t) (hd : (s.move d).2 ≠ .blocked) :
    KeepsUp g (s.move d).1 (t.move d).1 := by
  have hentered := h.enteredBy_eq hd
  have hd' := h.move_ne_blocked hd
  obtain ⟨⟨vs, hs⟩, ⟨us, ht⟩, -, hkey⟩ := h
  refine ⟨⟨_, hs.move d⟩, ⟨_, ht.move d⟩, ?_, fun hkey' => ?_⟩
  · unfold enteredBy at hentered
    rw [if_neg hd, if_neg hd'] at hentered
    exact List.singleton_inj.mp hentered
  · -- a key was held before, or one was entered, in both
    rw [(ht.move d).hasKey_iff, hentered]
    obtain ⟨p, hp, hdrawn⟩ := (hs.move d).hasKey_iff.mp hkey'
    rcases List.mem_append.mp hp with hp | hp
    · obtain ⟨q, hq, hdrawn'⟩ := ht.hasKey_iff.mp (hkey (hs.hasKey_iff.mpr ⟨p, hp, hdrawn⟩))
      exact ⟨q, List.mem_append_left _ hq, hdrawn'⟩
    · exact ⟨p, List.mem_append_right _ hp, hdrawn⟩

/-- **So it does after any moves**, and both robots have entered the same points. -/
theorem moves (h : KeepsUp g s t) (hds : s.Passes ds) :
    KeepsUp g (s.moves ds) (t.moves ds) ∧ t.Passes ds ∧ t.entered ds = s.entered ds := by
  induction ds generalizing s t with
  | nil => exact ⟨h, trivial, rfl⟩
  | cons d ds ih =>
    obtain ⟨hd, hds⟩ := hds
    obtain ⟨hkeeps, hpasses, hentered⟩ := ih (h.move hd) hds
    refine ⟨hkeeps, ⟨h.move_ne_blocked hd, hpasses⟩, ?_⟩
    rw [entered, entered, h.enteredBy_eq hd, hentered]

end KeepsUp

/-! ### Moves that lead alike -/

theorem Passes.of_append {before after : List Direction} (h : w.Passes (before ++ after)) :
    w.Passes before ∧ (w.moves before).Passes after := by
  induction before generalizing w with
  | nil => exact ⟨trivial, h⟩
  | cons d before ih =>
    obtain ⟨hd, hrest⟩ := h
    obtain ⟨hbefore, hafter⟩ := ih hrest
    exact ⟨⟨hd, hbefore⟩, hafter⟩

/-- **Blocked moves may be left out.** -/
theorem exists_passes (w : World) (ds : List Direction) :
    ∃ es : List Direction, es.length ≤ ds.length ∧ w.Passes es ∧ w.moves es = w.moves ds := by
  induction ds generalizing w with
  | nil => exact ⟨[], le_rfl, trivial, rfl⟩
  | cons d ds ih =>
    obtain ⟨es, hlen, hpasses, hmoves⟩ := ih (w.move d).1
    by_cases hd : (w.move d).2 = .blocked
    · have hsame : (w.move d).1 = w := eq_of_move_blocked (Prod.ext rfl hd)
      rw [hsame] at hpasses hmoves
      exact ⟨es, hlen.trans (Nat.le_succ _), hpasses, by rw [hmoves, moves_cons, hsame]⟩
    · exact ⟨d :: es, Nat.succ_le_succ hlen, ⟨hd, hpasses⟩, hmoves⟩

/-- **Moves lead alike from a second world**: no move is blocked there either, the robot enters
the same points, and it reaches a flag with the same moves. -/
structure LeadAlike (s t : World) (ds : List Direction) : Prop where
  passes : t.Passes ds
  entered : t.entered ds = s.entered ds
  flags : ∀ before d after, ds = before ++ d :: after →
    (((t.moves before).move d).2 = .moved .flagReached ↔
      ((s.moves before).move d).2 = .moved .flagReached)

namespace KeepsUp

theorem leadAlike (h : KeepsUp g s t) (hds : s.Passes ds) : LeadAlike s t ds where
  passes := (h.moves hds).2.1
  entered := (h.moves hds).2.2
  flags before d after hsplit := by
    rw [hsplit] at hds
    obtain ⟨hbefore, hd, -⟩ := hds.of_append
    exact (h.moves hbefore).1.flagReached_iff hd

/-- **A way to a flag is a way to a flag.** -/
theorem finished_moves (h : KeepsUp g s t) (hs : s.finished = false) (hds : s.Passes ds)
    (hfin : (s.moves ds).finished = true) : (t.moves ds).finished = true := by
  obtain ⟨-, -, hentered⟩ := h.moves hds
  obtain ⟨⟨vs, hfoot⟩, ⟨us, hfoot'⟩, -, -⟩ := h
  obtain ⟨p, hp, hflag⟩ := (hfoot.moves ds).finished_iff.mp hfin
  rw [(hfoot'.moves ds).finished_iff, hentered]
  rcases List.mem_append.mp hp with hp | hp
  · -- the world would have been finished before
    cases hs.symm.trans (hfoot.finished_iff.mpr ⟨p, hp, hflag⟩)
  · exact ⟨p, List.mem_append_right _ hp, hflag⟩

/-- The blocked moves left out, the same moves reach a flag, or fewer. -/
theorem exists_finished (h : KeepsUp g s t) (hs : s.finished = false)
    (hfin : (s.moves ds).finished = true) :
    ∃ es : List Direction, es.length ≤ ds.length ∧ (t.moves es).finished = true := by
  obtain ⟨es, hlen, hpasses, hmoves⟩ := exists_passes s ds
  exact ⟨es, hlen, h.finished_moves hs hpasses (by rw [hmoves, hfin])⟩

end KeepsUp

/-- **Taking a key or opening a door closes no way.** Let two worlds be come to from the start of
a maze that is drawn, with the robot at the same point, and all that is opened in the one be
opened in the other. Then moves that are not blocked in the one lead alike from the other. If the
one is not finished, moves to a flag are matched by no more moves from the other, and the way
that is found from the other is no longer. -/
theorem leadAlike_of_opened {name hint : String} {rows : List String} {m : Maze}
    (h : Maze.ofDrawing name rows hint = .ok m) {as bs : List Direction}
    (hs : s = m.opening.moves as) (ht : t = m.opening.moves bs) (hrobot : s.robot = t.robot)
    (hopened : ∀ p, s.Opened m.grid p → t.Opened m.grid p) :
    (∀ ds, s.Passes ds → LeadAlike s t ds) ∧
      (s.finished = false →
        (∀ ds, (s.moves ds).finished = true →
          ∃ es : List Direction, es.length ≤ ds.length ∧ (t.moves es).finished = true) ∧
        ∀ budget budget' way way', s.route? budget = some way → t.route? budget' = some way' →
          way'.length ≤ way.length) := by
  obtain ⟨hin, hstart⟩ := Maze.start_of_ofDrawing h
  have hfoot := (footprint_opening hin hstart).moves as
  have hfoot' := (footprint_opening hin hstart).moves bs
  rw [← hs] at hfoot
  rw [← ht] at hfoot'
  have hkeeps := keepsUp_of_opened hfoot hfoot' hrobot hopened
  refine ⟨fun ds => hkeeps.leadAlike, fun hfin => ⟨fun ds => hkeeps.exists_finished hfin, ?_⟩⟩
  intro budget budget' way way' hway hway'
  obtain ⟨es, hlen, hes⟩ := hkeeps.exists_finished hfin (isShortest_of_route? hway).finishes
  rw [List.length_map] at hlen
  exact ((isShortest_of_route? hway').shortest es hes).trans hlen

/-- In the easy maze the robot stands beside the start, once on its way to the key and once with
the key in hand. On its way it has yet to take the key before it goes through the door. -/
theorem leadAlike_of_opened_easy :
    ∃ s t : World, s = Preset.easy.maze.opening.moves [.right] ∧
      t = Preset.easy.maze.opening.moves [.right, .right, .left] ∧ s ≠ t ∧ s.robot = t.robot ∧
      (∀ p, s.Opened Preset.easy.maze.grid p → t.Opened Preset.easy.maze.grid p) ∧
      s.Passes [.right, .left, .down, .down] ∧ LeadAlike s t [.right, .left, .down, .down] ∧
      s.route? 100 = some [⟨.left, ⟨1, 1⟩⟩, ⟨.down, ⟨1, 2⟩⟩, ⟨.down, ⟨1, 3⟩⟩, ⟨.right, ⟨2, 3⟩⟩] ∧
      ∀ way, t.route? 100 = some way → way.length ≤ 4 := by
  have hopened : ∀ p, (Preset.easy.maze.opening.moves [.right]).Opened Preset.easy.maze.grid p →
      (Preset.easy.maze.opening.moves [.right, .right, .left]).Opened Preset.easy.maze.grid p := by
    have hsame : (Preset.easy.maze.opening.moves [.right]).grid = Preset.easy.maze.grid := by
      decide +kernel
    rintro p ⟨-, ⟨k, hk, htaken⟩, hfloor⟩
    -- nothing is opened yet, so that no floor was drawn as anything else
    rw [hsame, hk] at hfloor
    cases hfloor
    cases htaken
  have hrobot : (Preset.easy.maze.opening.moves [.right]).robot =
      (Preset.easy.maze.opening.moves [.right, .right, .left]).robot := by
    decide +kernel
  have hpasses :
      (Preset.easy.maze.opening.moves [.right]).Passes [.right, .left, .down, .down] := by
    refine ⟨?_, ?_, ?_, ?_, trivial⟩ <;> decide +kernel
  have hway : (Preset.easy.maze.opening.moves [.right]).route? 100 =
      some [⟨.left, ⟨1, 1⟩⟩, ⟨.down, ⟨1, 2⟩⟩, ⟨.down, ⟨1, 3⟩⟩, ⟨.right, ⟨2, 3⟩⟩] :=
    Route.Search.run_eq_of_runWithin (n := 10) (by cbv)
  obtain ⟨halike, hways⟩ :=
    leadAlike_of_opened Preset.easy.ofDrawing_eq rfl rfl hrobot hopened
  refine ⟨_, _, rfl, rfl, by decide +kernel, hrobot, hopened, hpasses, halike _ hpasses, hway, ?_⟩
  exact fun way => (hways (by decide +kernel)).2 100 100 _ way hway

end World

end ScriptedMaze
