import ScriptedMaze.Proofs.Play.Modes
import ScriptedMaze.Proofs.Play.Quiet
import ScriptedMaze.Proofs.Route.Shortest
import ScriptedMaze.Proofs.Script.Listed

/-!
# The solution that is offered wins

A player can ask for a script that reaches the flag from here. What is offered lists a
shortest way (`World.isShortest_of_route?`), and so it makes no move in vain: none is blocked,
and the last one, but no earlier one, reaches a flag (`Route.IsShortest.exists_outcomes`). A run
that makes these moves undisturbed makes all of them and wins with the last (`Replayed.won`).

Whether a run is asked for these moves depends on how the script is read. Line by line it is,
as no line asks for more than a loop may; how long the way is does not matter
(`Play.map_snd_asked_script`). As a whole the script is read back too, but only if the way has
no more moves than a script may ask for.
-/

namespace ScriptedMaze

open Route

/-! ### What a shortest way does -/

namespace World

variable {w : World} {ds : List Direction} {os : List Outcome}

theorem length_outcomes (w : World) (ds : List Direction) :
    (w.outcomes ds).length = ds.length := by
  induction ds generalizing w with
  | nil => rfl
  | cons d ds ih => rw [outcomes, List.length_cons, ih, List.length_cons]

/-- Where only the last move ends a run, the run makes all moves. -/
theorem stretch_of_outcomes (h : w.outcomes ds = os ++ [.moved .flagReached])
    (hos : ∀ o ∈ os, o.ends = false) : w.stretch ds = ds.length := by
  have hlen := w.length_outcomes ds
  have hidx : (os ++ [Outcome.moved .flagReached]).findIdx Outcome.ends = os.length := by
    rw [List.findIdx_append, List.findIdx_eq_length.mpr hos]
    simp [List.findIdx_cons, Outcome.ends]
  rw [stretch, h, hidx, ← hlen, h, List.length_append, List.length_singleton, Nat.min_self]

theorem lastPhase_of_outcomes (h : w.outcomes ds = os ++ [.moved .flagReached])
    (hos : ∀ o ∈ os, o.ends = false) : w.lastPhase ds = .finished := by
  have hlen := w.length_outcomes ds
  rw [lastPhase, stretch_of_outcomes h hos, ← hlen, h]
  simp [Outcome.phase]

end World

/-- **A way that finishes a world with its last move only** meets nothing that ends a run, and
then a flag. -/
theorem Route.Leads.exists_outcomes {w v : World} {way : List Route.Step} (h : Leads w way v)
    (hfin : w.finished = false) (hv : v.finished = true)
    (hbefore : ∀ n < way.length,
      (w.moves ((way.take n).map Route.Step.direction)).finished = false) :
    ∃ os, w.outcomes (way.map Route.Step.direction) = os ++ [.moved .flagReached] ∧
      ∀ o ∈ os, o.ends = false := by
  induction way generalizing w with
  | nil =>
    obtain rfl : w = v := h
    exact absurd (hfin.symm.trans hv) Bool.false_ne_true
  | cons s rest ih =>
    obtain ⟨u, e, hm, -, hrest⟩ := h
    have hflag : u.finished = true ↔ e = .flagReached := by
      have hiff := World.finished_move_iff hfin s.direction
      rw [hm] at hiff
      simpa using hiff
    rw [List.map_cons, World.outcomes, hm]
    cases rest with
    | nil =>
      obtain rfl : u = v := hrest
      rw [hflag.mp hv]
      exact ⟨[], rfl, by simp⟩
    | cons s' rest =>
      have hafter : ∀ n < (s' :: rest).length,
          (u.moves (((s' :: rest).take n).map Route.Step.direction)).finished = false := by
        intro n hn
        have hlater := hbefore (n + 1) (Nat.succ_lt_succ hn)
        rwa [List.take_succ_cons, List.map_cons, World.moves_cons, hm] at hlater
      have hopen : u.finished = false := hafter 0 (Nat.succ_pos _)
      obtain ⟨os, hos, hends⟩ := ih hrest hopen hafter
      refine ⟨.moved e :: os, by rw [hos]; rfl, List.forall_mem_cons.mpr ⟨?_, hends⟩⟩
      refine eq_false_of_ne_true fun hend => ?_
      rcases Outcome.ends_iff.mp hend with heq | heq
      · cases heq
      · rw [hflag.mpr (by simpa using heq)] at hopen
        cases hopen

/-- A shortest way from a world that is not finished takes a move. -/
theorem Route.IsShortest.map_ne_nil {w : World} {way : List Route.Step} (h : IsShortest w way)
    (hfin : w.finished = false) : way.map Route.Step.direction ≠ [] := by
  intro hnil
  have hfinishes := h.finishes
  rw [hnil] at hfinishes
  exact absurd (hfin.symm.trans hfinishes) Bool.false_ne_true

/-! ### Runs that win -/

/-- **A run that wins** with its last move: it makes `n` moves, none of which is blocked, and
leaves the maze finished and the game to nobody. -/
structure Won (g : Game) (n : Nat) (rs : List Report) (g' : Game) : Prop where
  length : rs.length = n
  not_blocked : ∀ res ∈ rs, res.verdict ≠ .blocked
  finished : g'.world.finished = true
  phase : g'.phase = .finished
  not_running : g'.running = false
  steps : g'.steps = g.steps + n

/-- **A run that makes the moves of a shortest way wins.** -/
theorem Replayed.won {g g' : Game} {way : List Route.Step} {moves : List (Option Nat × Direction)}
    {first : Nat} {rs : List Report} (h : Replayed g.taken moves first rs g')
    (hmoves : moves.map (·.2) = way.map Route.Step.direction) (hway : IsShortest g.world way)
    (hfin : g.world.finished = false) : Won g way.length rs g' := by
  obtain ⟨os, hos, hends⟩ := hway.leads.exists_outcomes hfin hway.finishes hway.not_before
  have hstretch : rs.length = g.world.stretch (moves.map (·.2)) := h.length
  have hlength : rs.length = way.length := by
    rw [hstretch, hmoves, World.stretch_of_outcomes hos hends, List.length_map]
  have htake : (way.map Route.Step.direction).take way.length = way.map Route.Step.direction :=
    List.take_of_length_le (by rw [List.length_map])
  obtain ⟨s, rfl⟩ := h.game
  refine ⟨hlength, fun res hres => ?_, ?_, ?_, rfl, congrArg (g.steps + ·) hlength⟩
  · -- each report has the outcome of its move, and none of these is blocked
    obtain ⟨i, hi, rfl⟩ := List.getElem_of_mem hres
    have hlt : i < moves.length := by
      rw [hlength] at hi
      rwa [← List.length_map (f := (·.2)), hmoves, List.length_map]
    obtain ⟨⟨line, d⟩, hmove⟩ : ∃ p, moves[i]? = some p := ⟨_, List.getElem?_eq_getElem hlt⟩
    have hreport : rs[i]? = some ((g.world.moves ((moves.map (·.2)).take i)).moveReport d
        (first + i + 1) line) := h.report i line d hi hmove
    rw [List.getElem?_eq_getElem hi, Option.some_inj] at hreport
    have houtcome : (g.world.outcomes (way.map Route.Step.direction))[i]? =
        some ((g.world.moves ((moves.map (·.2)).take i)).move d).2 := by
      rw [World.getElem?_outcomes, ← hmoves, List.getElem?_map, hmove]
      rfl
    have hmem := List.mem_of_getElem? houtcome
    rw [hreport]
    intro hverdict
    rw [Outcome.verdict_eq_blocked_iff.mp hverdict, hos, List.mem_append] at hmem
    rcases hmem with hmem | hmem
    · cases hends _ hmem
    · simp at hmem
  · dsimp only
    rw [hmoves, hlength, htake]
    exact hway.finishes
  · dsimp only
    rw [hmoves]
    exact World.lastPhase_of_outcomes hos hends

/-! ### The script of the solution -/

namespace Play

variable {σ : Type} {tell : Listener σ} {t t' : Table σ} {limits : Script.Limits}
  {ds : List Direction} {script : String}

/-- **The lines of a script that lists moves ask for these moves**, whatever their number, if a
line may ask for the moves of a loop. -/
theorem map_snd_asked_script (hbound : 1 ≤ limits.bound) (hdigits : limits.bound ≤ 99)
    (hmoves : limits.bound ≤ limits.moves) (hne : ds ≠ []) :
    (asked limits (numberedLines (Route.script limits.bound ds))).map (·.2) = ds := by
  have hpieces : pieceLines (pieces limits.bound ds) ≠ [] := fun h =>
    hne (pieces_eq_nil_iff.mp (List.map_eq_nil_iff.mp h))
  have hline : ∀ p ∈ pieces limits.bound ds,
      Script.lineMoves limits (scriptLine p.1 p.2) = List.replicate p.2 p.1 := by
    intro p hp
    have hle := le_of_mem_pieces hbound hp
    exact Script.lineMoves_scriptLine (by omega) hle (by omega) p.1
  rw [script_eq_listing, listing, numberedLines_intercalate hpieces
    (fun _ h => (Script.not_mem_pieceLines h).1) (fun _ h => (Script.not_mem_pieceLines h).2),
    map_snd_asked, pieceLines, List.flatMap_map, List.flatMap_congr hline]
  exact together_pieces limits.bound ds

/-- A script that lists moves is not blank. -/
theorem blank_script (bound : Int) (hne : ds ≠ []) :
    Text.blank (Route.script bound ds) = false := by
  rw [script_eq_listing]
  exact (Script.passes_listing fun hnil => hne (pieces_eq_nil_iff.mp hnil)).1

/-- **A run wins in live mode** whose script lists the moves of a shortest way, whatever it is
waited for and whatever is done after its steps. -/
theorem won_drain_script {fit : σ → Prop} (h : tell.StaysWithin fit Game.SameButStatus)
    (ht : fit t.audience) (hidle : t.game.running = false) (hfin : t.game.world.finished = false)
    (hbound : 1 ≤ t.game.rules.limits.bound) (hdigits : t.game.rules.limits.bound ≤ 99)
    (hmoves : t.game.rules.limits.bound ≤ t.game.rules.limits.moves) {way : List Route.Step}
    (hway : IsShortest t.game.world way) {paces : List Pace}
    (hwait : ∀ q ∈ paces, q.owed = false) {seen : Report → Play σ Unit}
    (hseen : ∀ res, Within fit Game.SameButStatus (seen res)) :
    Succeeds (drain tell ⟨.live (Route.script t.game.rules.limits.bound
        (way.map Route.Step.direction)), paces⟩ seen) t fun rs t' =>
      Won t.game way.length rs t'.game := by
  refine (replayed_drain h ht hidle hfin (p := ⟨.live _, paces⟩) id hwait hseen).mono ?_
  intro rs t' hreplayed
  exact hreplayed.won (map_snd_asked_script hbound hdigits hmoves (hway.map_ne_nil hfin)) hway hfin

/-- What is offered is the script of a way that was found. -/
theorem exists_route_of_solution (h : tell.Passive)
    (hsol : (solution tell).on t = (.ok (some script), t')) :
    ∃ way, t.game.world.route? = some way ∧ t'.game = t.game ∧
      script = Route.script t.game.rules.limits.bound (way.map Route.Step.direction) := by
  cases hroute : t.game.world.route? with
  | none =>
    rw [on_solution_of_none hroute] at hsol
    cases hsol
  | some way =>
    obtain ⟨audience, hon⟩ := exists_on_solution h hroute
    cases hon.symm.trans hsol
    exact ⟨way, rfl, rfl, rfl⟩

/-- **The solution that is offered wins**, from every world that a game can have come to, if
loops have at most as many rounds as a header can tell and a line may ask for. In live mode it
makes as many moves as were planned, however many these are; in batch mode it does the same,
unless the plan has more moves than a script may ask for, and then it is rejected. -/
theorem solution_wins (h : tell.Passive) (hidle : t.game.running = false)
    (hfin : t.game.world.finished = false) (hbound : 1 ≤ t.game.rules.limits.bound)
    (hdigits : t.game.rules.limits.bound ≤ 99)
    (hmoves : t.game.rules.limits.bound ≤ t.game.rules.limits.moves)
    (hsol : (solution tell).on t = (.ok (some script), t')) :
    ∃ plan, t.game.world.route? = some plan ∧
      Succeeds (openLive tell script >>= fun run => drain tell ⟨run, []⟩) t'
        (fun rs u => Won t.game plan.length rs u.game) ∧
      (plan.length ≤ t.game.rules.limits.moves →
        Succeeds (openBatch tell script >>= fun run => drain tell ⟨run, []⟩) t'
          fun rs u => Won t.game plan.length rs u.game) ∧
      (t.game.rules.limits.moves < plan.length → ∃ u, (openBatch tell script).on t' =
        (.error (.script (.tooManyMoves plan.length t.game.rules.limits.moves)), u)) := by
  obtain ⟨plan, hroute, hgame, rfl⟩ := exists_route_of_solution h hsol
  have hshortest := World.isShortest_of_route? hroute
  have hidle' : t'.game.running = false := hgame ▸ hidle
  have hfin' : t'.game.world.finished = false := hgame ▸ hfin
  have hne := hshortest.map_ne_nil hfin
  have hcommands := (Script.commands_script _ hbound hne).trans
    (by rw [(Script.firstTooLong_eq_none_iff hbound).mpr (by rintro ⟨d, n, -, hlt⟩; omega)])
  rw [List.length_map] at hcommands
  refine ⟨plan, hroute, ?_, fun hle => ?_, fun hlt => ?_⟩
  · refine (Succeeds.of_on (on_openLive hidle' (blank_script _ hne)) ⟨rfl, rfl⟩).bind
      (P := fun run u => run = _ ∧ u = _) ?_
    rintro _ _ ⟨rfl, rfl⟩
    rw [← hgame] at hbound hdigits hmoves hshortest ⊢
    exact won_drain_script h.staysWithin trivial hidle' hfin' hbound hdigits hmoves hshortest
      (List.forall_mem_nil _) fun _ => .pure ()
  · rw [if_neg (Int.not_lt.mpr hle)] at hcommands
    refine (replayed_openBatch h hidle' hfin' (by rw [hgame]; exact hcommands)).mono
      fun rs u hreplayed => ?_
    rw [hgame] at hreplayed
    exact hreplayed.won (by rw [List.map_map]; exact List.map_id _) hshortest hfin
  · rw [if_pos hlt] at hcommands
    obtain ⟨u, hon, -⟩ := exists_on_openBatch_of_error h hidle' (by rw [hgame]; exact hcommands)
    exact ⟨u, hon⟩

/-- Nobody listens to the maze in which the key is on the other side. -/
def unheardLocked (limits : Script.Limits) : Table Unit := ⟨Game.unopened { limits } locked, ()⟩

/-- Four moves in two lines win in live mode even where three moves are the most, and in batch
mode where they are not. -/
theorem solution_wins_locked :
    (solution .silent).on (unheardLocked { bound := 3, moves := 3 }) =
        (.ok (some "moveLeft();\nfor (let i = 0; i < 3; i++) moveRight();"),
          unheardLocked { bound := 3, moves := 3 }) ∧
      Succeeds (openLive .silent "moveLeft();\nfor (let i = 0; i < 3; i++) moveRight();" >>=
          fun run => drain .silent ⟨run, []⟩) (unheardLocked { bound := 3, moves := 3 })
        (fun rs u => Won (unheardLocked { bound := 3, moves := 3 }).game 4 rs u.game) ∧
      (∃ u, (openBatch .silent "moveLeft();\nfor (let i = 0; i < 3; i++) moveRight();").on
        (unheardLocked { bound := 3, moves := 3 }) = (.error (.script (.tooManyMoves 4 3)), u)) ∧
      Succeeds (openBatch .silent "moveLeft();\nfor (let i = 0; i < 3; i++) moveRight();" >>=
          fun run => drain .silent ⟨run, []⟩) (unheardLocked {})
        (fun rs u => Won (unheardLocked {}).game 4 rs u.game) := by
  have hsilent := Listener.passive_silent (σ := Unit)
  have hroute : locked.opening.route? =
      some [⟨.left, ⟨0, 0⟩⟩, ⟨.right, ⟨1, 0⟩⟩, ⟨.right, ⟨2, 0⟩⟩, ⟨.right, ⟨3, 0⟩⟩] :=
    Search.run_eq_of_runWithin (n := 6) (by cbv)
  have hoffered : ∀ limits : Script.Limits,
      Route.script limits.bound [.left, .right, .right, .right] =
        "moveLeft();\nfor (let i = 0; i < 3; i++) moveRight();" →
      (solution .silent).on (unheardLocked limits) =
        (.ok (some "moveLeft();\nfor (let i = 0; i < 3; i++) moveRight();"),
          unheardLocked limits) := by
    intro limits hscript
    obtain ⟨audience, hon⟩ := exists_on_solution (t := unheardLocked limits) hsilent hroute
    rw [hon, ← hscript]
    rfl
  have hfew := hoffered { bound := 3, moves := 3 } (by decide +kernel)
  have hmany := hoffered {} (by decide +kernel)
  obtain ⟨plan, hplan, hlive, -, hrejected⟩ :=
    solution_wins hsilent rfl rfl (by decide) (by decide) (by decide) hfew
  obtain ⟨plan', hplan', -, hbatch, -⟩ :=
    solution_wins hsilent rfl rfl (by decide) (by decide) (by decide) hmany
  cases hplan.symm.trans hroute
  cases hplan'.symm.trans hroute
  exact ⟨hfew, hlive, hrejected (by decide), hbatch (by decide)⟩

end Play

end ScriptedMaze
