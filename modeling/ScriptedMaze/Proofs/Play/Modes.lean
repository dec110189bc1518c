import ScriptedMaze.Proofs.Play.Unread
import ScriptedMaze.Proofs.Script.Joined

/-!
# The two modes on a script of lines

A script is run in batch mode as a whole and in live mode line by line. If its lines stand
alone, and ask together for no more than a script may ask for, it is the same to a player
which mode is chosen (`Play.modes_agree`): the script as a whole asks for the moves of its
lines, and a run that nobody disturbs is the fold of the moves that it asks for. Only the
numbers of the lines are missing from the reports in batch mode.
-/

namespace ScriptedMaze

/-! ### The lines of a source in live mode -/

section Lines

variable {sep : Char} {cs : List Char} {lines : List String}

theorem Text.joinLineEndPairs_of_not_mem (h : '\r' ∉ cs) : Text.joinLineEndPairs cs = cs := by
  fun_induction Text.joinLineEndPairs cs with
  | case1 => exact absurd List.mem_cons_self h
  | case2 c r _ ih => rw [ih fun hr => h (List.mem_cons_of_mem c hr)]
  | case3 => rfl

theorem Text.pieces_of_not_mem (h : sep ∉ cs) : Text.pieces sep cs = [cs] := by
  induction cs with
  | nil => rfl
  | cons c cs ih =>
    obtain ⟨hc, hcs⟩ := List.ne_and_not_mem_of_not_mem_cons h
    rw [Text.pieces, if_neg (Ne.symm hc), ih hcs]

theorem Text.pieces_append_cons (h : sep ∉ cs) (rest : List Char) :
    Text.pieces sep (cs ++ sep :: rest) = cs :: Text.pieces sep rest := by
  induction cs with
  | nil => exact if_pos rfl
  | cons c cs ih =>
    obtain ⟨hc, hcs⟩ := List.ne_and_not_mem_of_not_mem_cons h
    rw [List.cons_append, Text.pieces, if_neg (Ne.symm hc), ih hcs]

/-- The lines of a script that is put together from lines. -/
theorem pieces_intercalate (hne : lines ≠ []) (h : ∀ line ∈ lines, '\n' ∉ line.toList) :
    Text.pieces '\n' ("\n".intercalate lines).toList = lines.map String.toList := by
  induction lines with
  | nil => exact absurd rfl hne
  | cons line lines ih =>
    obtain ⟨hline, hlines⟩ := List.forall_mem_cons.mp h
    cases lines with
    | nil => rw [Script.toList_intercalate_singleton, Text.pieces_of_not_mem hline]; rfl
    | cons line' lines =>
      rw [Script.toList_intercalate_cons_cons, Text.pieces_append_cons hline,
        ih (List.cons_ne_nil _ _) hlines]
      rfl

theorem numberedLines_intercalate (hne : lines ≠ []) (hfeed : ∀ line ∈ lines, '\n' ∉ line.toList)
    (hreturn : ∀ line ∈ lines, '\r' ∉ line.toList) :
    numberedLines ("\n".intercalate lines) = (lines.zipIdx 1).map fun (line, n) => (n, line) := by
  rw [numberedLines, Text.joinLineEndPairs_of_not_mem (Script.not_mem_return_intercalate hreturn),
    pieces_intercalate hne hfeed, List.zipIdx_map, List.map_map]
  exact List.map_congr_left fun p _ => congrArg (Prod.mk p.2) String.ofList_toList

/-- Lines ask for their moves. -/
theorem map_snd_asked (limits : Script.Limits) (lines : List String) (n : Nat) :
    (asked limits ((lines.zipIdx n).map fun (line, k) => (k, line))).map (·.2) =
      lines.flatMap (Script.lineMoves limits) := by
  induction lines generalizing n with
  | nil => rfl
  | cons line lines ih =>
    rw [List.zipIdx_cons, List.map_cons, asked_cons, List.map_append, ih, List.flatMap_cons,
      List.map_map]
    exact congrArg (· ++ _) (List.map_id _)

end Lines

/-! ### Runs that make the same moves -/

namespace Replayed

variable {g g₁ g₂ : Game} {ds : List Direction} {moves : List (Option Nat × Direction)}
  {first : Nat} {rs rs' : List Report}

/-- **Two runs that are asked for the same moves make the same**, whatever lines the moves
come from. -/
theorem agree (h : Replayed g (ds.map fun d => (none, d)) first rs g₁)
    (h' : Replayed g moves first rs' g₂) (hmoves : moves.map (·.2) = ds) :
    rs'.map (fun res => { res with line := none }) = rs ∧ Game.SameButStatus g₁ g₂ := by
  have hds : (ds.map fun d => ((none : Option Nat), d)).map (·.2) = ds := by
    rw [List.map_map]
    exact List.map_id ds
  have hlen : rs'.length = rs.length := by rw [h.length, h'.length, hmoves, hds]
  refine ⟨List.ext_getElem? fun i => ?_, ?_⟩
  · rw [List.getElem?_map]
    by_cases hi : i < rs.length
    · have hlt : i < moves.length := by
        have hle : rs.length ≤ ds.length := by
          rw [h.length, hds]
          exact Nat.min_le_right _ _
        rw [← hmoves, List.length_map] at hle
        exact Nat.lt_of_lt_of_le hi hle
      obtain ⟨⟨line, d⟩, hmove⟩ : ∃ p, moves[i]? = some p := ⟨_, List.getElem?_eq_getElem hlt⟩
      have hmove' : (ds.map fun d => ((none : Option Nat), d))[i]? = some (none, d) := by
        rw [← hmoves, List.getElem?_map, List.getElem?_map, hmove]
        rfl
      rw [h.report i none d hi hmove', h'.report i line d (by rwa [hlen]) hmove, hds, hmoves]
      rfl
    · rw [List.getElem?_eq_none (Nat.not_lt.mp hi),
        List.getElem?_eq_none (by rw [hlen]; exact Nat.not_lt.mp hi), Option.map_none]
  · obtain ⟨s, hs⟩ := h.game
    obtain ⟨s', hs'⟩ := h'.game
    refine ⟨s', ?_⟩
    rw [hs, hs', hmoves, hds, hlen]

end Replayed

/-! ### The two modes -/

/-- **Lines that can be run in either mode**: each of them stands alone, not all are blank,
and together they ask for no more than a script may. -/
structure Script.RunsInLines (limits : Script.Limits) (lines : List String) : Prop where
  standsAlone : ∀ line ∈ lines, Script.StandsAlone limits line
  exists_not_blank : ∃ line ∈ lines, Text.blank line = false
  length_le : ((lines.flatMap (Script.lineMoves limits)).length : Int) ≤ limits.moves
  cost_le : ((lines.map (Script.lineCost limits)).sum : Int) ≤ max limits.expansions 0

namespace Play

/-- **Batch mode and live mode agree on a script of lines.** The script asks for the moves of
its lines. And if two equal games that no run owns and that are not over are given the script,
one in each mode, while those who listen do not call back, then the reports are the same but
for the lines, and the games that are left are the same but for the status. -/
theorem modes_agree {limits : Script.Limits} {lines : List String}
    (hlines : Script.RunsInLines limits lines) :
    Script.commands limits ("\n".intercalate lines) =
        .ok (lines.flatMap (Script.lineMoves limits)) ∧
      ∀ {σ τ : Type} {tell : Listener σ} {tell' : Listener τ} {t : Table σ} {t' : Table τ},
        tell.Passive → tell'.Passive → t'.game = t.game → t.game.rules.limits = limits →
        t.game.running = false → t.game.world.finished = false →
        ∃ rs rs' u u',
          (openBatch tell ("\n".intercalate lines) >>= fun run => drain tell ⟨run, []⟩).on t =
            (.ok rs, u) ∧
          (openLive tell' ("\n".intercalate lines) >>= fun run => drain tell' ⟨run, []⟩).on t' =
            (.ok rs', u') ∧
          rs'.map (fun res => { res with line := none }) = rs ∧
          Game.SameButStatus u.game u'.game := by
  obtain ⟨hstands, hnot, hlength, hcost⟩ := hlines
  have hcommands := Script.commands_intercalate hstands hnot hlength hcost
  refine ⟨hcommands, ?_⟩
  intro σ τ tell tell' t t' h h' hgame hlimits hidle hfin
  obtain ⟨line, hline, hblank⟩ := hnot
  have hjoined : Text.blank ("\n".intercalate lines) = false := by
    refine eq_false_of_ne_true fun hall => ?_
    rw [Script.blank_intercalate.mp hall line hline] at hblank
    cases hblank
  obtain ⟨rs, u, hon, hreplayed⟩ := replayed_openBatch h hidle hfin (by rwa [hlimits])
  obtain ⟨rs', u', hon', hreplayed'⟩ := replayed_openLive (t := t') h' (by rwa [hgame])
    (by rwa [hgame]) hjoined
  have hlines := numberedLines_intercalate (List.ne_nil_of_mem hline)
    (fun line hline => (hstands line hline).not_mem_lineFeed)
    fun line hline => (hstands line hline).not_mem_return
  rw [hgame, hlimits, hlines] at hreplayed'
  exact ⟨rs, rs', u, u', hon, hon', hreplayed.agree hreplayed' (map_snd_asked limits lines 1)⟩

/-- Of these lines the first leaves a brace open, the second closes it and holds a loop and a
comment, the third is blank, and the fourth closes a brace that is not open. -/
def braceOverLines : List String :=
  ["\x7b for (let i = 0; i < 2; i++) moveRight()",
    "\x7d for (let i = 0; i < 1; i++) \x7b moveDown(); \x7d // down", " ", "moveLeft(); \x7d"]

theorem runsInLines_braceOverLines : Script.RunsInLines {} braceOverLines where
  standsAlone line hline := by
    have hall : ∀ line ∈ braceOverLines, '\n' ∉ line.toList ∧ '\r' ∉ line.toList ∧
        ¬['/', '*'] <:+: line.toList ∧
        (Script.tokens line).dropLast.getLast?.all (fun t => t.lexeme ≠ .word "for") = true ∧
        (Script.lineCommands {} line).toBool = true := by
      decide +kernel
    obtain ⟨hfeed, hreturn, hcomment, hlast, haccepted⟩ := hall line hline
    refine ⟨hfeed, hreturn, hcomment, fun t ht => ?_, ?_⟩
    · simpa using (Option.all_eq_true _ _).mp hlast t ht
    · cases hds : Script.lineCommands {} line with
      | error f =>
        rw [hds] at haccepted
        cases haccepted
      | ok ds => exact ⟨ds, rfl⟩
  exists_not_blank := ⟨_, List.mem_cons_self, by decide +kernel⟩
  length_le := by decide +kernel
  cost_le := by decide +kernel

/-- Both modes go right twice, down and left. -/
theorem modes_agree_braceOverLines :
    Script.RunsInLines {} braceOverLines ∧
      braceOverLines.flatMap (Script.lineMoves {}) = [.right, .right, .down, .left] ∧
      Script.commands {} ("\n".intercalate braceOverLines) = .ok [.right, .right, .down, .left] ∧
      (Listener.silent : Listener Unit).Passive ∧ unheard.game.rules.limits = {} ∧
      unheard.game.running = false ∧ unheard.game.world.finished = false ∧
      ∃ rs rs' u u',
        (openBatch .silent ("\n".intercalate braceOverLines) >>= fun run =>
          drain .silent ⟨run, []⟩).on unheard = (.ok rs, u) ∧
        (openLive .silent ("\n".intercalate braceOverLines) >>= fun run =>
          drain .silent ⟨run, []⟩).on unheard = (.ok rs', u') ∧
        rs'.map (fun res => { res with line := none }) = rs ∧
        Game.SameButStatus u.game u'.game := by
  have hsilent : (Listener.silent : Listener Unit).Passive := fun n t => ⟨(), rfl⟩
  have hmoves : braceOverLines.flatMap (Script.lineMoves {}) = [.right, .right, .down, .left] := by
    decide +kernel
  obtain ⟨hcommands, hagree⟩ := modes_agree runsInLines_braceOverLines
  rw [hmoves] at hcommands
  exact ⟨runsInLines_braceOverLines, hmoves, hcommands, hsilent, rfl, rfl, rfl,
    hagree hsilent hsilent rfl rfl rfl rfl⟩

end Play

end ScriptedMaze
