import ScriptedMaze.Proofs.Play.Kept
import ScriptedMaze.Proofs.Play.Offered
import ScriptedMaze.Proofs.Route.Budget
import ScriptedMaze.Terminal.Tool

/-!
# What the command lines take to be winnable

One tool plays a script in the maze of a file, and one solves the maze. The one ends well if the
maze is finished in the end, the other if it finds a way; and they agree on which mazes this can be
said of (`winnable_agree`).

Whoever plays a script that wins has made moves that finish the maze, whatever the script is and
however it is played: whatever a play does, the world is one that moves lead to from the opening
(`Play.steady_reachedFrom`). Where there are such moves, a way is found, as long as there are not
more worlds to come to than the search may go on from (`World.never_finished_iff`).

The other way round, the script that is printed for a way is read back as the moves of the way if it
is played line by line, however many they are, and a shortest way wins
(`Play.won_drain_script`). The notices of the game are printed, steps are printed and waited for,
and nothing of that touches the game (`passive_narrate`, `within_showStep`).

A command line names a file by a word of its own or by one that is joined to the option
(`playsLive_apart`, `playsLive_joined`).
-/

namespace ScriptedMaze

namespace Play

variable {σ : Type} {tell : Listener σ}

/-- Moves lead from a world to that of a table. -/
def ReachedFrom (w : World) (t : Table σ) : Prop := ∃ ds, t.game.world = w.moves ds

/-- **Whatever is done in a maze, its world is one that moves lead to.** -/
theorem steady_reachedFrom (h : tell.Passive) (w : World) : Steady tell (ReachedFrom w) where
  write t g hg := by
    rintro ⟨ds, hds⟩
    exact ⟨ds, hg.trans hds⟩
  notice n _ t := by
    rintro ⟨ds, hds⟩
    obtain ⟨audience, hon⟩ := h n t
    rw [hon]
    exact ⟨ds, hds⟩
  move d t := by
    rintro ⟨ds, hds⟩
    obtain ⟨_, t', hon, -, -, s, hs⟩ := succeeds_makeMove h.staysWithin (t := t) trivial d
    refine ⟨ds ++ [d], ?_⟩
    rw [hon, hs, World.moves_concat, ← hds]
    rfl

end Play

namespace Terminal

open Play Route Arguments

variable {settings : Settings} {host : Host} {disk : Disk} {input file subject source : String}
  {maze : Maze} {words : List String} {a : Arguments}

/-! ### Playing a script -/

theorem passive_narrate : Listener.Passive narrate := by
  intro n t
  cases n with
  | status s => exact ⟨_, rfl⟩
  | pause seconds => exact ⟨_, rfl⟩
  | cell p => exact ⟨_, rfl⟩
  | robot p => exact ⟨_, rfl⟩
  | debug text => exact ⟨_, rfl⟩

theorem keeps_playRun (w : World) (settings : Settings) (host : Host) (a : Arguments) (run : Run) :
    Keeps (ReachedFrom w) (playRun settings host a run) := by
  have h := steady_reachedFrom passive_narrate w
  have hseen : ∀ res, Keeps (ReachedFrom w) (showStep res) := fun _ _ ht => ht
  unfold playRun
  dsimp only
  split
  · exact (h.drain hseen _).bind fun _ => .pure _
  · exact (h.take hseen _ _).bind fun _ => .pure _

theorem keeps_playScript (w : World) (settings : Settings) (host : Host) (a : Arguments)
    (source : String) : Keeps (ReachedFrom w) (playScript settings host a source) := by
  have h := steady_reachedFrom passive_narrate w
  unfold playScript
  split
  · exact (h.openLive source).bind fun run => keeps_playRun w settings host a run
  · refine (h.openBatch? source).bind fun run? => ?_
    cases run? with
    | some run => exact keeps_playRun w settings host a run
    | none => exact .pure _

/-- A new game is at the opening of its maze, and no run owns it. -/
theorem exists_new (rules : Rules) (maze : Maze) :
    ∃ t : Table (List Output), Game.new narrate rules maze [] = (.ok (), t) ∧
      t.game.world = maze.opening ∧ t.game.rules = rules ∧ t.game.running = false := by
  obtain ⟨_, t, hon, s, hs⟩ := succeeds_reset passive_narrate
    (⟨Game.unopened rules maze, []⟩ : Table (List Output))
  exact ⟨t, hon, by rw [hs]; rfl, by rw [hs]; rfl, by rw [hs]; rfl⟩

theorem chooseMaze_eq (hmaze : readMaze disk file = .ok maze) (hfile : file ≠ "")
    (ha : a.maze = some file) : chooseMaze settings disk a = .ok maze := by
  have hnamed : a.maze.filter (!·.isEmpty) = some file := by
    rw [ha, Option.filter_some, if_pos]
    simpa using hfile
  unfold chooseMaze
  rw [hnamed]
  exact hmaze

/-- **Who plays in a maze and ends well has found moves that finish it.** -/
theorem exists_finished_of_playTool (hmaze : readMaze disk file = .ok maze) (hfile : file ≠ "")
    (ha : a.maze = some file)
    (h : (playTool settings host disk input subject a).ending = .exit 0) :
    ∃ ds, (maze.opening.moves ds).finished = true := by
  obtain ⟨t, hnew, hworld, -⟩ := exists_new settings.rules maze
  unfold playTool at h
  cases hsource : readScript disk input subject with
  | error c =>
    rw [hsource] at h
    cases h
  | ok source =>
    rw [hsource, chooseMaze_eq hmaze hfile ha] at h
    dsimp only [bind, Except.bind, pure, Except.pure] at h
    rw [hnew] at h
    dsimp only at h
    obtain ⟨ds, hds⟩ := keeps_playScript maze.opening settings host a source t ⟨[], hworld⟩
    refine ⟨ds, ?_⟩
    rw [← hds]
    split at h
    · rename_i t' hon
      rw [hon]
      dsimp only at h
      split at h
      · assumption
      · cases h
    · cases h
    · cases h
    · cases h

theorem within_showStep (res : Report) :
    Within (fun _ => True) Game.SameButStatus (showStep res) :=
  fun t _ => .of_on rfl ⟨trivial, refl_of Game.SameButStatus t.game⟩

/-- **The script of a way that was found wins**, line by line, wherever it is read. -/
theorem ending_playTool_of_route (hlimits : settings.rules.limits = {})
    (hmaze : readMaze disk file = .ok maze) (hfile : file ≠ "") (ha : a.maze = some file)
    (hlive : a.live = true) (hdelay : a.delay = none)
    (hpause : host.canWait settings.livePause = true) {way : List Route.Step}
    (hway : maze.opening.route? = some way)
    (hsource : readScript disk input subject =
      .ok (Route.script settings.rules.limits.bound (way.map Route.Step.direction))) :
    (playTool settings host disk input subject a).ending = .exit 0 := by
  obtain ⟨t, hnew, hworld, hrules, hidle⟩ := exists_new settings.rules maze
  have hshortest := World.isShortest_of_route? hway
  have hblank := blank_script settings.rules.limits.bound (hshortest.map_ne_nil rfl)
  obtain ⟨rs, t', hon, hwon⟩ := won_drain_script (t := t) passive_narrate.staysWithin trivial hidle
    (by rw [hworld]; rfl) (by rw [hrules, hlimits]; decide) (by rw [hrules, hlimits]; decide)
    (by rw [hrules, hlimits]; decide) (hworld ▸ hshortest)
    (List.forall_mem_singleton.mpr (rfl : (⟨settings.livePause, false⟩ : Pace).owed = false))
    within_showStep
  rw [hrules] at hon
  have hplayed : (playScript settings host a (Route.script settings.rules.limits.bound
      (way.map Route.Step.direction))).on t = (.ok none, t') := by
    unfold playScript
    rw [hlive, if_pos rfl, on_bind, on_openLive hidle hblank]
    dsimp only
    unfold playRun
    dsimp only
    rw [hdelay, hlive, if_pos rfl, Option.getD_none, Delay.seconds?, if_pos hpause]
    dsimp only [PacedRun.slowed]
    rw [on_bind, hon]
    rfl
  unfold playTool
  rw [hsource, chooseMaze_eq hmaze hfile ha]
  dsimp only [bind, Except.bind, pure, Except.pure]
  rw [hnew]
  dsimp only
  rw [hplayed]
  dsimp only
  rw [hwon.finished, if_pos rfl]

/-! ### Solving a maze -/

theorem ending_solveTool (hpreset : Preset.ofName? file = none)
    (hmaze : readMaze disk file = .ok maze) :
    (solveTool settings disk file).ending =
      .exit (if maze.opening.route? = none then 1 else 0) := by
  unfold solveTool
  rw [hpreset]
  dsimp only
  rw [hmaze]
  dsimp only
  cases maze.opening.route? <;> rfl

/-- **Moves that finish a maze are found** if there are any, and not too many worlds to come to. -/
theorem ending_solveTool_of_finished (hpreset : Preset.ofName? file = none)
    (hmaze : readMaze disk file = .ok maze) (hfew : maze.opening.ahead.ncard ≤ 200001)
    (h : ∃ ds, (maze.opening.moves ds).finished = true) :
    (solveTool settings disk file).ending = .exit 0 := by
  obtain ⟨ds, hds⟩ := h
  have hnever := World.never_finished_iff (w := maze.opening) rfl 200000 (by omega) (by omega)
  have hsome : maze.opening.route? ≠ none := fun hnone =>
    absurd ((hnever.mpr hnone ds).symm.trans hds) Bool.false_ne_true
  rw [ending_solveTool hpreset hmaze, if_neg hsome]

/-- The script that lists a way is printed last. -/
theorem exists_route_of_solveTool (hpreset : Preset.ofName? file = none)
    (hmaze : readMaze disk file = .ok maze)
    (h : (solveTool settings disk file).ending = .exit 0) :
    ∃ way, maze.opening.route? = some way ∧
      (solveTool settings disk file).outputs.getLast? = some (line
        (Route.script settings.rules.limits.bound (way.map Route.Step.direction))) := by
  cases hway : maze.opening.route? with
  | none =>
    rw [ending_solveTool hpreset hmaze, if_pos hway] at h
    cases h
  | some way =>
    refine ⟨way, rfl, ?_⟩
    have houtputs : (solveTool settings disk file).outputs =
        routeLines settings.rules.limits.bound way := by
      unfold solveTool
      rw [hpreset]
      dsimp only
      rw [hmaze]
      dsimp only
      rw [hway]
    rw [houtputs, routeLines, List.getLast?_append]
    rfl

/-! ### Command lines -/

/-- **The words of a command line have a script played line by line in the maze of a file**, and
say nothing else. -/
def PlaysLive (host : Host) (words : List String) (subject file : String) : Prop :=
  Arguments.read allOptions words host =
    .ok (subject, { subject := some subject, maze := some file, live := true })

/-- A maze is named by a value that the host does not drop. -/
theorem readValue_maze (hfile : host.dropsSeparator = true → file ≠ "--")
    (ha : a.difficulty = none) :
    a.readValue host .maze file = .ok { a with maze := some file } := by
  have hkept : (host.dropsSeparator && decide (file = "--")) = false := by
    cases hdrops : host.dropsSeparator with
    | true => exact decide_eq_false (hfile hdrops)
    | false => rfl
  unfold readValue
  rw [hkept, ha]
  rfl

/-- Words that are no options can stand by themselves. -/
theorem playsLive_apart (hsubject : sortWord allOptions subject = some (.plain subject))
    (hsubject' : subject ≠ "--") (hfile : sortWord allOptions file = some (.plain file))
    (hfile' : file ≠ "--") : PlaysLive host [subject, "--maze", file, "--live"] subject file := by
  have hmaze : sortWord allOptions "--maze" = some (.option .maze false none) := by decide +kernel
  have hlive : sortWord allOptions "--live" = some (.option .live false none) := by decide +kernel
  have hsorted : sortWords allOptions [subject, "--maze", file, "--live"] =
      .ok [.plain subject, .option .maze false none, .plain file, .option .live false none] := by
    simp [sortWords, hsubject, hsubject', hfile, hfile', hmaze, hlive, Except.map]
  unfold PlaysLive Arguments.read
  rw [hsorted]
  simp [readWords, readValue_maze fun _ => hfile', readFlag, Opt.takesValue, bind, Except.bind,
    pure, Except.pure]

/-- A maze can be joined to its option whatever the file is called. -/
theorem sortWord_joined (file : String) :
    sortWord allOptions ("--maze=" ++ file) = some (.option .maze false (some file)) := by
  have hlist : ("--maze=" ++ file).toList =
      '-' :: '-' :: ("maze".toList ++ '=' :: file.toList) := by
    rw [String.toList_append]
    rfl
  have hcut : cutAtEquals ("--maze=" ++ file) = ("--maze", some file) := by
    unfold cutAtEquals
    rw [hlist]
    simp
  have hspelled : spelled? allOptions ("--maze=" ++ file) = none := by
    have hequals : ∀ o ∈ allOptions, '=' ∉ o.1.toList := by decide +kernel
    have hne : ∀ o ∈ allOptions, ¬decide (o.1 = "--maze=" ++ file) = true := by
      intro o ho heq
      refine hequals o ho ?_
      rw [of_decide_eq_true heq, hlist]
      simp
    unfold spelled?
    rw [List.find?_eq_none.mpr hne]
    rfl
  have hmaze : spelled? allOptions "--maze" = some .maze := by decide +kernel
  unfold sortWord
  rw [hlist]
  dsimp only
  rw [hspelled, hcut]
  dsimp only
  rw [hmaze]
  rfl

/-- **Every file can be named**, unless it is called like the word after which there are no
options, and the host drops that. -/
theorem playsLive_joined (hfile : host.dropsSeparator = true → file ≠ "--") :
    PlaysLive host ["-", "--maze=" ++ file, "--live"] "-" file := by
  have hsubject : sortWord allOptions "-" = some (.plain "-") := by decide +kernel
  have hlive : sortWord allOptions "--live" = some (.option .live false none) := by decide +kernel
  have hne : "--maze=" ++ file ≠ "--" := by
    intro h
    have hlist := congrArg String.toList h
    rw [String.toList_append] at hlist
    cases hlist
  have hsorted : sortWords allOptions ["-", "--maze=" ++ file, "--live"] =
      .ok [.plain "-", .option .maze false (some file), .option .live false none] := by
    simp [sortWords, hsubject, sortWord_joined, hlive, hne, Except.map]
  unfold PlaysLive Arguments.read
  rw [hsorted]
  simp [readWords, readValue_maze hfile, readFlag, Opt.takesValue, bind, Except.bind, pure,
    Except.pure]

/-! ### Both command lines -/

/-- The script that lists moves can be handed in on the standard input. -/
theorem readScript_script (disk : Disk) (bound : Int) (ds : List Direction) :
    readScript disk (Route.script bound ds) "-" = .ok (Route.script bound ds) := by
  unfold readScript
  rw [if_pos rfl, script_eq_listing, Script.unifyLineEnds_listing, String.ofList_toList]

theorem perform_solve (h : Arguments.read helpOnly words host = .ok (file, a)) :
    Tool.solve.perform settings disk input words host = solveTool settings disk file := by
  unfold Tool.perform
  dsimp only
  rw [h]

theorem perform_play (h : Arguments.read allOptions words host = .ok (subject, a)) :
    Tool.play.perform settings disk input words host =
      playTool settings host disk input subject a := by
  unfold Tool.perform
  dsimp only
  rw [h]

/-- **The two command lines agree on what is winnable.** Let a file hold a maze from whose opening
no more than 200001 unfinished worlds can be come to, and let the limits of scripts be the usual
ones. To solve the maze of the file ends well exactly if there is a script such that to play it
there line by line ends well; the script that is printed in the end is such a script, wherever it
is read from. If it ends without a solution, no script ends well in the maze of the file, in either
mode, however long it is waited for.

The file has to be named by both command lines: an empty word names no file, and on a host that
drops it, neither does the word `--`. Whoever plays has to wait after each step, so that the host
has to be able to wait as long as the settings say. -/
theorem winnable_agree (hlimits : settings.rules.limits = {}) (hfile : file ≠ "")
    (hfile' : host.dropsSeparator = true → file ≠ "--")
    (hpause : host.canWait settings.livePause = true) (hpreset : Preset.ofName? file = none)
    (hmaze : readMaze disk file = .ok maze) (hfew : maze.opening.ahead.ncard ≤ 200001)
    (hwords : Arguments.read helpOnly words host = .ok (file, a)) :
    ((Tool.solve.perform settings disk input words host).ending = .exit 0 ↔
      ∃ disk' input' words' subject, readMaze disk' file = .ok maze ∧
        PlaysLive host words' subject file ∧
        (Tool.play.perform settings disk' input' words' host).ending = .exit 0) ∧
    ((Tool.solve.perform settings disk input words host).ending = .exit 0 →
      ∃ script, (Tool.solve.perform settings disk input words host).outputs.getLast? =
          some (line script) ∧ readScript disk script "-" = .ok script ∧
        ∀ disk' input' words' subject, readMaze disk' file = .ok maze →
          PlaysLive host words' subject file → readScript disk' input' subject = .ok script →
          (Tool.play.perform settings disk' input' words' host).ending = .exit 0) ∧
    ((Tool.solve.perform settings disk input words host).ending = .exit 1 →
      ∀ disk' input' words' subject b, readMaze disk' file = .ok maze →
        Arguments.read allOptions words' host = .ok (subject, b) → b.maze = some file →
        (Tool.play.perform settings disk' input' words' host).ending ≠ .exit 0) := by
  rw [perform_solve hwords]
  have hwins : ∀ {disk' input' words' subject way}, maze.opening.route? = some way →
      readMaze disk' file = .ok maze → PlaysLive host words' subject file →
      readScript disk' input' subject = .ok
        (Route.script settings.rules.limits.bound (way.map Route.Step.direction)) →
      (Tool.play.perform settings disk' input' words' host).ending = .exit 0 := by
    intro disk' input' words' subject way hway hmaze' hlive hscript
    rw [perform_play hlive]
    exact ending_playTool_of_route hlimits hmaze' hfile rfl rfl rfl hpause hway hscript
  have hplayed : ∀ {disk' input' words' subject b}, readMaze disk' file = .ok maze →
      Arguments.read allOptions words' host = .ok (subject, b) → b.maze = some file →
      (Tool.play.perform settings disk' input' words' host).ending = .exit 0 →
      (solveTool settings disk file).ending = .exit 0 := by
    intro disk' input' words' subject b hmaze' hread hb hexit
    rw [perform_play hread] at hexit
    exact ending_solveTool_of_finished hpreset hmaze hfew
      (exists_finished_of_playTool hmaze' hfile hb hexit)
  refine ⟨⟨fun hsolved => ?_, ?_⟩, fun hsolved => ?_, ?_⟩
  · -- the script that is printed is handed in on the standard input
    obtain ⟨way, hway, -⟩ := exists_route_of_solveTool hpreset hmaze hsolved
    have hlive := playsLive_joined hfile'
    exact ⟨disk, _, _, _, hmaze, hlive, hwins hway hmaze hlive (readScript_script _ _ _)⟩
  · rintro ⟨disk', input', words', subject, hmaze', hlive, hexit⟩
    exact hplayed hmaze' hlive rfl hexit
  · obtain ⟨way, hway, hlast⟩ := exists_route_of_solveTool hpreset hmaze hsolved
    exact ⟨_, hlast, readScript_script _ _ _,
      fun _ _ _ _ hmaze' hlive hscript => hwins hway hmaze' hlive hscript⟩
  · intro hunsolved disk' input' words' subject b hmaze' hread hb hexit
    rw [hplayed hmaze' hread hb hexit] at hunsolved
    cases hunsolved

/-- A disk with one file, which holds the maze in which the key is on the other side. -/
def corridor : Disk := fun path =>
  if path = "corridor.txt" then .ok "K S D F\n".toUTF8 else .error .notFound

theorem readMaze_corridor :
    readMaze corridor "corridor.txt" = .ok { locked with name := "corridor" } := by
  decide +kernel

/-- The corridor is solved, and so there is a script that wins in it. -/
theorem winnable_agree_corridor :
    (Tool.solve.perform {} corridor "" ["corridor.txt"]).ending = .exit 0 ∧
      ∃ script, (Tool.play.perform {} corridor script
        ["-", "--maze", "corridor.txt", "--live"]).ending = .exit 0 := by
  have hroute : locked.opening.route? =
      some [⟨.left, ⟨0, 0⟩⟩, ⟨.right, ⟨1, 0⟩⟩, ⟨.right, ⟨2, 0⟩⟩, ⟨.right, ⟨3, 0⟩⟩] :=
    Search.run_eq_of_runWithin (n := 6) (by cbv)
  have hpreset : Preset.ofName? "corridor.txt" = none := by decide +kernel
  have hsolved : (Tool.solve.perform {} corridor "" ["corridor.txt"]).ending = .exit 0 := by
    refine (ending_solveTool hpreset readMaze_corridor).trans ?_
    rw [if_neg fun hnone => by cases hroute.symm.trans hnone]
  have hwords : Arguments.read helpOnly ["corridor.txt"] =
      .ok ("corridor.txt", { subject := some "corridor.txt" }) := by cbv
  have hlive : PlaysLive {} ["-", "--maze", "corridor.txt", "--live"] "-" "corridor.txt" :=
    playsLive_apart (by decide +kernel) (by decide) (by decide +kernel) (by decide)
  have hfew : locked.opening.ahead.ncard ≤ 200001 := World.ncard_ahead_locked_le.trans (by decide)
  have hlimits : ({} : Settings).rules.limits = {} := rfl
  have hpause : ({} : Host).canWait ({} : Settings).livePause = true := Bool.or_true _
  obtain ⟨script, -, hread, hwins⟩ := (winnable_agree hlimits (by decide) (fun _ => by decide)
    hpause hpreset readMaze_corridor hfew hwords).2.1 hsolved
  exact ⟨hsolved, script, hwins _ _ _ _ readMaze_corridor hlive hread⟩

end Terminal

end ScriptedMaze
