import ScriptedMaze.Proofs.Route.Pieces
import ScriptedMaze.Proofs.Script.Joined
import ScriptedMaze.Proofs.Script.Spelled
import ScriptedMaze.Script.Depth

/-!
# Reading a listing back

A list of moves is shown as a script, one line for each piece of a run
(`Route.script_eq_intercalate`). Here the script is read again, and what comes of it is told
for every list of moves, every limit and every most rounds of a loop (`Script.commands_script`).

The reading goes from line to line. A line whose loop is not too long is taken as a whole,
whatever stands below it, and leaves no brace open (`Reading.run_of_scriptLine`); the reading
stops at the first line whose loop has a number of three digits, since a header has room for
two (`Reading.run_of_scriptLine_of_lt`). What carries the induction is that the tokens to come
are those of the pieces to come (`Script.Listed`): they are the tokens of one line after the
other, each on its own line of the script.

The pieces are never longer than a loop may be, as the same limit cuts them and is checked. The
tree has no braced loop, and so it costs nothing to unroll it.
-/

namespace ScriptedMaze.Script

open Route Loop

variable {maxBound maxDepth : Int} {d : Direction} {n k : Nat} {us behind : List Token}
  {R : Reading} {ps front back : List (Direction × Nat)} {ds : List Direction} {limits : Limits}
  {bound : Int}

/-! ### The tokens of a listing -/

/-- **The tokens of pieces**: those of a line for each, from line `k` on, and the end of the
script. -/
inductive Listed : (k : Nat) → List (Direction × Nat) → List Token → Prop
  | finish {k : Nat} {e : Token} : e.lexeme = .finish → Listed k [] [e]
  | line {k : Nat} {d : Direction} {n : Nat} {ps : List (Direction × Nat)}
      {us behind : List Token} : us.map Token.lexeme = lineLexemes d n → (∀ t ∈ us, t.line = k) →
      Listed (k + 1) ps behind → Listed k ((d, n) :: ps) (us ++ behind)

/-- The tokens of a line of a listing. -/
theorem exists_scanFrom_scriptLine (d : Direction) (n k : Nat) :
    ∃ us e, Token.scanFrom ⟨k, 1⟩ (scriptLine d n).toList = us ++ [e] ∧
      us.map Token.lexeme = lineLexemes d n ∧ (∀ t ∈ us, t.line = k) ∧ e.lexeme = .finish := by
  obtain ⟨us, e, heq, he, -⟩ := Token.scanFrom_eq ⟨k, 1⟩ (scriptLine d n).toList
  have hlexemes := Lexeme.map_lexeme_scanFrom ⟨k, 1⟩ (scriptLine d n).toList
  rw [scan_scriptLine, heq, List.map_append] at hlexemes
  have honLine := Token.scanFrom_eq_map_onLine (p := ⟨k, 1⟩) (q := ⟨k, 1⟩)
    (isLine_scriptLine d n).not_mem rfl
  refine ⟨us, e, heq, List.append_inj_left' hlexemes rfl, fun t ht => ?_, he⟩
  have hmem : t ∈ Token.scanFrom ⟨k, 1⟩ (scriptLine d n).toList := by
    rw [heq]
    exact List.mem_append_left _ ht
  rw [honLine] at hmem
  obtain ⟨u, -, rfl⟩ := List.mem_map.mp hmem
  rfl

theorem listed_scanFrom (hne : ps ≠ []) (k : Nat) :
    Listed k ps (Token.scanFrom ⟨k, 1⟩ (listing ps).toList) := by
  unfold listing pieceLines
  induction ps generalizing k with
  | nil => exact absurd rfl hne
  | cons p ps ih =>
    obtain ⟨us, e, heq, hus, hline, he⟩ := exists_scanFrom_scriptLine p.1 p.2 k
    cases ps with
    | nil =>
      rw [List.map_singleton, toList_intercalate_singleton, heq]
      exact .line hus hline (.finish he)
    | cons p' ps =>
      rw [List.map_cons, List.map_cons, toList_intercalate_cons_cons,
        Token.scanFrom_append_lineFeed (isLine_scriptLine p.1 p.2), heq, List.dropLast_concat]
      exact .line hus hline (ih (List.cons_ne_nil _ _) (k + 1))

/-! ### Reading a listing -/

theorem length_toString_le : (toString n).length ≤ 2 ↔ n ≤ 99 := by
  rw [Nat.toString_eq_repr, Nat.length_repr_le_iff (by decide)]
  exact Nat.lt_succ_iff

theorem numberValue_toString (n : Nat) : numberValue (toString n) = n := by
  rw [numberValue, toList_toString]
  exact Nat.ofDigitChars_ten_toDigits

/-- What a line is read as. -/
def lineNode (d : Direction) (n k : Nat) : Node :=
  if n = 1 then .move d k else .loop n [.move d k] false k

theorem unrolled_lineNode (d : Direction) (n k : Nat) :
    unrolled [lineNode d n k] = List.replicate n d := by
  unfold lineNode
  split
  · rename_i h
    subst h
    rfl
  · simp [unrolled, Node.unrolled]

theorem cost_lineNode (d : Direction) (n k : Nat) : cost [lineNode d n k] = 0 := by
  unfold lineNode
  split <;> simp [cost, Node.cost]

/-- The body of a line's loop is its move. -/
theorem takeBody_move {t u : Token} {inBlock : Bool} (ht : t.lexeme = .move d)
    (hu : u.lexeme = .semicolon) (hline : u.line = t.line) (behind : List Token) :
    takeBody k inBlock (t :: u :: behind) = .ok ([.move d t.line], behind) := by
  have hin : inRun t.line t = true := by simp [inRun, ht]
  have hend : inRun t.line u = false := by simp [inRun, hu]
  rw [takeBody, if_neg (by simp [ht]), takeLine_of_inRun hin,
    if_neg (by rw [atLoop_eq_false (by simp [ht])]; exact Bool.false_ne_true),
    takeLine_of_not_inRun hend, if_neg (by simp [hu]), afterSemicolon, if_pos ⟨hu, hline⟩,
    moveNode?, ht]
  rfl

/-- The tokens of a line with a loop. -/
theorem exists_of_lineLexemes (h : n ≠ 1) (hus : us.map Token.lexeme = lineLexemes d n) :
    ∃ f head t u, us = f :: head ++ [t, u] ∧
      (f :: head).map Token.lexeme = opening (toString n) ∧ t.lexeme = .move d ∧
      u.lexeme = .semicolon := by
  rw [lineLexemes, if_neg h] at hus
  obtain ⟨a, b, rfl, ha, hb⟩ := List.map_eq_append_iff.mp hus
  obtain ⟨f, head, rfl, -, -⟩ := List.map_eq_cons_iff.mp ha
  obtain ⟨t, b, rfl, ht, hb⟩ := List.map_eq_cons_iff.mp hb
  obtain ⟨u, b, rfl, hu, hb⟩ := List.map_eq_cons_iff.mp hb
  rw [List.map_eq_nil_iff.mp hb]
  exact ⟨f, head, t, u, rfl, ha, ht, hu⟩

namespace Reading

/-- **A line whose loop is neither too long for a header nor for the limits is read.** -/
theorem run_of_scriptLine (hus : us.map Token.lexeme = lineLexemes d n)
    (hline : ∀ t ∈ us, t.line = k) (hn : n ≤ 99) (hbound : (n : Int) ≤ maxBound)
    (hrest : R.rest = us ++ behind) :
    R.run maxBound maxDepth =
      ({ R with nodes := lineNode d n k :: R.nodes, rest := behind } : Reading).run
        maxBound maxDepth := by
  by_cases h : n = 1
  · subst h
    rw [lineLexemes, if_pos rfl] at hus
    obtain ⟨t, us, rfl, ht, hus⟩ := List.map_eq_cons_iff.mp hus
    obtain ⟨u, us, rfl, hu, hus⟩ := List.map_eq_cons_iff.mp hus
    obtain rfl := List.map_eq_nil_iff.mp hus
    rw [run_of_step hrest (by simp [ht]) (step_of_move ht), hline t List.mem_cons_self,
      run_of_step rfl (by simp [hu])
        (step_of_ne (by simp [hu]) (by simp [hu]) (by simp [hu]) (atLoop_eq_false (by simp [hu])))]
    rfl
  · obtain ⟨f, head, t, u, rfl, hhead, ht, hu⟩ := exists_of_lineLexemes h hus
    have hopening : IsOpening n (f :: head) :=
      ⟨toString n, hhead, length_toString_le.mpr hn, numberValue_toString n⟩
    have hfor : f.lexeme = .word "for" := (List.cons_eq_cons.mp hhead).1
    have hf : f.line = k := hline f (by simp)
    have ht' : t.line = k := hline t (by simp)
    have hu' : u.line = k := hline u (by simp)
    have hloop := hopening.atLoop_append ([t, u] ++ behind)
    rw [List.append_assoc, List.cons_append] at hrest
    refine run_of_step hrest (by simp [hfor]) ?_
    rw [step_of_atLoop (by exact hloop), enterLoop,
      (takeHeader_eq_some hfor).mpr ⟨head, rfl, hopening⟩]
    dsimp only
    rw [if_neg (Int.not_lt.mpr hbound), List.cons_append, enterBody_of_ne (by simp [ht]),
      List.cons_append, takeBody_move ht hu (hu'.trans ht'.symm), hf, ht', lineNode, if_neg h]
    rfl

/-- **A line whose loop is too long for a header is rejected.** -/
theorem run_of_scriptLine_of_lt (hus : us.map Token.lexeme = lineLexemes d n)
    (hline : ∀ t ∈ us, t.line = k) (hn : 99 < n) (hrest : R.rest = us ++ behind) :
    R.run maxBound maxDepth = .error (.badHeader k) := by
  obtain ⟨f, head, t, u, rfl, hhead, ht, hu⟩ := exists_of_lineLexemes (by omega) hus
  have hfor : f.lexeme = .word "for" := (List.cons_eq_cons.mp hhead).1
  have hf : f.line = k := hline f (by simp)
  have hloop : atLoop (f :: (head ++ ([t, u] ++ behind))) = true := by
    obtain ⟨p, head, rfl, hp, -⟩ := List.map_eq_cons_iff.mp (List.cons_eq_cons.mp hhead).2
    exact atLoop_cons.mpr ⟨hfor, p, _, rfl, hp⟩
  have hheader : takeHeader (head ++ ([t, u] ++ behind)) = none := by
    -- the number would have two digits and more
    refine Option.eq_none_iff_forall_ne_some.mpr fun p hp => ?_
    obtain ⟨head', heq, digits, hmap, hlen, -⟩ := (takeHeader_eq_some hfor).mp hp
    have hsize : (f :: head).length = (f :: head').length := by
      rw [← List.length_map (f := Token.lexeme), hhead, ← List.length_map (f := Token.lexeme), hmap]
      rfl
    obtain ⟨rfl, -⟩ := List.append_inj heq (Nat.succ.inj hsize)
    have hdigits : opening (toString n) = opening digits := hhead.symm.trans hmap
    simp only [opening, List.cons.injEq, Lexeme.number.injEq, true_and, and_true] at hdigits
    rw [← hdigits, length_toString_le] at hlen
    exact absurd hlen (Nat.not_le.mpr hn)
  rw [List.append_assoc, List.cons_append] at hrest
  refine run_of_step_eq_error hrest (by simp [hfor]) ?_
  rw [step_of_atLoop hloop, enterLoop, hheader, hf]

/-- **Lines whose loops are not too long are read one after the other**, whatever stands
below them. -/
theorem exists_run_of_listed (maxDepth : Int) (h : Listed k (front ++ back) R.rest)
    (hfront : ∀ p ∈ front, p.2 ≤ 99 ∧ (p.2 : Int) ≤ maxBound) :
    ∃ R' : Reading, R.run maxBound maxDepth = R'.run maxBound maxDepth ∧
      Listed (k + front.length) back R'.rest ∧ R'.braces = R.braces ∧
      unrolled R'.nodes.reverse = unrolled R.nodes.reverse ++ together front ∧
      cost R'.nodes.reverse = cost R.nodes.reverse := by
  induction front generalizing k R with
  | nil => exact ⟨R, rfl, h, rfl, by simp, rfl⟩
  | cons p front ih =>
    generalize hrest : R.rest = ts at h
    cases h with
    | @line _ d n _ us behind hus hline hbehind =>
      obtain ⟨⟨hn, hbound⟩, hfront⟩ := List.forall_mem_cons.mp hfront
      obtain ⟨R', hrun, hlisted, hbraces, hmoves, hcost⟩ := ih
        (R := { R with nodes := lineNode d n k :: R.nodes, rest := behind }) hbehind hfront
      refine ⟨R', (run_of_scriptLine hus hline hn hbound hrest).trans hrun, ?_, hbraces, ?_, ?_⟩
      · rwa [Nat.add_right_comm] at hlisted
      · rw [hmoves, List.reverse_cons, unrolled_append, unrolled_lineNode, together_cons,
          List.append_assoc]
      · rw [hcost, List.reverse_cons, cost_append, cost_lineNode, Nat.add_zero]

end Reading

/-! ### Listings -/

/-- The lines of a listing are lines. -/
theorem not_mem_pieceLines {line : String} (h : line ∈ pieceLines ps) :
    '\n' ∉ line.toList ∧ '\r' ∉ line.toList := by
  obtain ⟨p, -, rfl⟩ := List.mem_map.mp h
  exact ⟨(isLine_scriptLine p.1 p.2).not_mem,
    not_mem_scriptLine (by decide) (by cases p.1 <;> decide)⟩

/-- The lines of a listing end with line feeds. -/
theorem unifyLineEnds_listing (ps : List (Direction × Nat)) :
    Text.unifyLineEnds (listing ps).toList = (listing ps).toList :=
  unifyLineEnds_of_not_mem
    (not_mem_return_intercalate fun _ hline => (not_mem_pieceLines hline).2)

/-- The tokens of a listing. -/
theorem listed_tokens (hne : ps ≠ []) : Listed 1 ps (tokens (listing ps)) := by
  rw [tokens, unifyLineEnds_listing]
  exact listed_scanFrom hne 1

/-- **The tree of a listing** stands for the moves and costs nothing, if no loop is too long. -/
theorem exists_tree_listing (hne : ps ≠ [])
    (hshort : ∀ p ∈ ps, p.2 ≤ 99 ∧ (p.2 : Int) ≤ limits.bound) :
    ∃ nodes, tree limits (listing ps) = .ok nodes ∧ unrolled nodes = together ps ∧
      cost nodes = 0 := by
  have hlisted := listed_tokens hne
  generalize htokens : tokens (listing ps) = ts at hlisted
  rw [← List.append_nil ps] at hlisted
  obtain ⟨R, hrun, hend, hbraces, hmoves, hcost⟩ := Reading.exists_run_of_listed
    (R := { rest := ts }) limits.expansions hlisted hshort
  generalize hrest : R.rest = rest at hend
  cases hend with
  | finish he =>
    rw [Reading.run_of_finish hrest he] at hrun
    refine ⟨R.nodes.reverse, ?_, hmoves, hcost⟩
    rw [tree, Tree.ofTokens, htokens, hrun]
    dsimp only
    rw [Reading.result, hbraces]
    rfl

/-- **A listing in which a loop is too long for a header has no tree**: the reading stops on the
line of the first such loop. -/
theorem tree_listing_eq_error (hfront : ∀ p ∈ front, p.2 ≤ 99 ∧ (p.2 : Int) ≤ limits.bound)
    (hn : 99 < n) (d : Direction) (back : List (Direction × Nat)) :
    tree limits (listing (front ++ (d, n) :: back)) = .error (.badHeader (1 + front.length)) := by
  have hlisted := listed_tokens (show front ++ (d, n) :: back ≠ [] by simp)
  generalize htokens : tokens (listing (front ++ (d, n) :: back)) = ts at hlisted
  obtain ⟨R, hrun, hrest, -⟩ := Reading.exists_run_of_listed
    (R := { rest := ts }) limits.expansions hlisted hfront
  generalize hts : R.rest = rest at hrest
  cases hrest with
  | line hus hline _ =>
    rw [Reading.run_of_scriptLine_of_lt hus hline hn hts] at hrun
    rw [tree, Tree.ofTokens, htokens, hrun]

/-- The first stages let a listing pass. -/
theorem passes_listing (hne : ps ≠ []) :
    Text.blank (listing ps) = false ∧ checkAllowed (listing ps) = .ok () := by
  obtain ⟨p, hp⟩ := List.exists_mem_of_ne_nil ps hne
  constructor
  · refine eq_false_of_ne_true fun hblank => ?_
    have hline := blank_intercalate.mp hblank _ (List.mem_map_of_mem hp)
    rw [not_blank_scriptLine] at hline
    cases hline
  · refine checkAllowed_eq_ok.mpr (findForbidden_intercalate (fun line hline => ?_) 1)
    obtain ⟨q, -, rfl⟩ := List.mem_map.mp hline
    exact checkAllowed_scriptLine q.1 q.2

/-- **A listing asks for its moves**, if they are not too many. -/
theorem commands_listing_of_short (hne : ps ≠ [])
    (hshort : ∀ p ∈ ps, p.2 ≤ 99 ∧ (p.2 : Int) ≤ limits.bound) :
    commands limits (listing ps) =
      if limits.moves < (together ps).length then
        .error (.tooManyMoves (together ps).length limits.moves)
      else .ok (together ps) := by
  obtain ⟨hblank, hallowed⟩ := passes_listing hne
  obtain ⟨nodes, htree, hmoves, hcost⟩ := exists_tree_listing hne hshort
  rw [commands_of_cost_le hblank hallowed htree (by omega), hmoves]

/-- A line alone asks for its moves. -/
theorem lineMoves_scriptLine (hn : n ≤ 99) (hbound : (n : Int) ≤ limits.bound)
    (hmoves : (n : Int) ≤ limits.moves) (d : Direction) :
    lineMoves limits (scriptLine d n) = List.replicate n d := by
  have hlisting : listing [(d, n)] = scriptLine d n := String.intercalate_singleton
  have hshort : ∀ p ∈ [(d, n)], p.2 ≤ 99 ∧ (p.2 : Int) ≤ limits.bound := by
    simpa using ⟨hn, hbound⟩
  have hcommands := commands_listing_of_short (List.cons_ne_nil _ _) hshort
  rw [hlisting, together_cons, together_nil, List.append_nil, List.length_replicate,
    if_neg (Int.not_lt.mpr hmoves)] at hcommands
  rw [lineMoves, lineCommands, not_blank_scriptLine, if_neg Bool.false_ne_true, hcommands]
  rfl

/-! ### The script of a list of moves -/

/-- The first piece that is too long for a header, which has room for two digits. -/
def firstTooLong (bound : Int) (ds : List Direction) : Option Nat :=
  (pieces bound ds).findIdx? fun p => decide (99 < p.2)

theorem firstTooLong_eq_none_iff (hbound : 1 ≤ bound) :
    firstTooLong bound ds = none ↔ ¬∃ d n, IsRun ds d n ∧ 99 < min (n : Int) bound := by
  have hlong := exists_lt_pieces_iff hbound ds 99
  rw [Nat.cast_ofNat] at hlong
  rw [firstTooLong, List.findIdx?_eq_none_iff, ← hlong]
  simp

theorem exists_tree_script (limits : Limits) (hbound : 1 ≤ limits.bound) (hne : ds ≠ [])
    (hshort : firstTooLong limits.bound ds = none) :
    ∃ nodes, tree limits (script limits.bound ds) = .ok nodes ∧ unrolled nodes = ds ∧
      cost nodes = 0 := by
  have hpieces : ∀ p ∈ pieces limits.bound ds, p.2 ≤ 99 := by
    simpa using List.findIdx?_eq_none_iff.mp hshort
  obtain ⟨nodes, htree, hmoves, hcost⟩ := exists_tree_listing
    (fun h => hne (pieces_eq_nil_iff.mp h)) fun p hp => ⟨hpieces p hp, le_of_mem_pieces hbound hp⟩
  rw [← script_eq_listing] at htree
  exact ⟨nodes, htree, hmoves.trans (together_pieces _ ds), hcost⟩

theorem tree_script_eq_error (limits : Limits) (hbound : 1 ≤ limits.bound) {i : Nat}
    (hi : firstTooLong limits.bound ds = some i) :
    tree limits (script limits.bound ds) = .error (.badHeader (1 + i)) := by
  obtain ⟨hlt, hlong, hshort⟩ := List.findIdx?_eq_some_iff_getElem.mp hi
  have hfront : ∀ p ∈ (pieces limits.bound ds).take i, p.2 ≤ 99 ∧ (p.2 : Int) ≤ limits.bound := by
    intro p hp
    refine ⟨?_, le_of_mem_pieces hbound (List.mem_of_mem_take hp)⟩
    obtain ⟨j, hj, rfl⟩ := List.mem_take_iff_getElem.mp hp
    simpa using hshort j (by omega)
  have htree := tree_listing_eq_error hfront (by simpa using hlong) (pieces limits.bound ds)[i].1
    ((pieces limits.bound ds).drop (i + 1))
  rwa [List.length_take_of_le (Nat.le_of_lt hlt), ← List.drop_eq_getElem_cons hlt,
    List.take_append_drop, ← script_eq_listing] at htree

/-- **What comes of a script that lists moves**, in the order in which it is looked at: a loop
that is too long for a header is come upon first, and the moves are counted last. -/
theorem commands_script (limits : Limits) (hbound : 1 ≤ limits.bound) (hne : ds ≠ []) :
    commands limits (script limits.bound ds) =
      match firstTooLong limits.bound ds with
      | some i => .error (.badHeader (1 + i))
      | none =>
        if limits.moves < ds.length then .error (.tooManyMoves ds.length limits.moves)
        else .ok ds := by
  have hpieces : pieces limits.bound ds ≠ [] := fun h => hne (pieces_eq_nil_iff.mp h)
  obtain ⟨hblank, hallowed⟩ := passes_listing hpieces
  rw [← script_eq_listing] at hblank hallowed
  split
  · rename_i i hi
    unfold commands
    rw [hblank, hallowed, tree_script_eq_error limits hbound hi]
    rfl
  · rename_i hnone
    obtain ⟨nodes, htree, rfl, hcost⟩ := exists_tree_script limits hbound hne hnone
    rw [commands_of_cost_le hblank hallowed htree (by omega)]

/-- Nothing is nested in a script that lists moves, and so its reading does not break off. -/
theorem breaksOff_script (hbound : 1 ≤ limits.bound) (ds : List Direction) :
    breaksOff limits (script limits.bound ds) = false := by
  by_cases hne : ds = []
  · subst hne
    rfl
  · have htree : Tree.ofTokens limits.bound deepest (tokens (script limits.bound ds)) =
        tree { limits with expansions := deepest } (script limits.bound ds) := rfl
    unfold breaksOff tokensBreakOff
    rw [htree]
    cases hlong : firstTooLong limits.bound ds with
    | none =>
      obtain ⟨nodes, hok, -⟩ :=
        exists_tree_script { limits with expansions := deepest } hbound hne hlong
      rw [hok]
      simp
    | some i =>
      rw [tree_script_eq_error { limits with expansions := deepest } hbound hlong]
      simp

/-- **A script that lists moves is read back to these moves.** No moves make no script. Where a
run is too long for two digits and loops may be as long, the header of its loop is not read;
otherwise the moves are given, unless they are too many. How many loops may be come upon plays
no part. -/
theorem commands_listing (limits : Limits) (hbound : 1 ≤ limits.bound) (ds : List Direction) :
    (ds = [] → commands limits (script limits.bound ds) = .error .emptyProgram) ∧
      (ds ≠ [] → (∃ d n, IsRun ds d n ∧ 99 < min (n : Int) limits.bound) →
        ∃ line, commands limits (script limits.bound ds) = .error (.badHeader line)) ∧
      (ds ≠ [] → (¬∃ d n, IsRun ds d n ∧ 99 < min (n : Int) limits.bound) →
        (limits.moves < ds.length →
          commands limits (script limits.bound ds) = .error (.tooManyMoves ds.length limits.moves)) ∧
        (ds.length ≤ limits.moves → commands limits (script limits.bound ds) = .ok ds)) ∧
      (limits.bound ≤ 99 → ds ≠ [] → ds.length ≤ limits.moves →
        commands limits (script limits.bound ds) = .ok ds) ∧
      (∀ expansions, commands { limits with expansions } (script limits.bound ds) =
        commands limits (script limits.bound ds)) ∧
      breaksOff limits (script limits.bound ds) = false := by
  have hshort : ds ≠ [] → (¬∃ d n, IsRun ds d n ∧ 99 < min (n : Int) limits.bound) →
      commands limits (script limits.bound ds) =
        if limits.moves < ds.length then .error (.tooManyMoves ds.length limits.moves)
        else .ok ds := by
    intro hne hrun
    rw [commands_script limits hbound hne, (firstTooLong_eq_none_iff hbound).mpr hrun]
  refine ⟨?_, fun hne hrun => ?_, fun hne hrun => ⟨fun hlt => ?_, fun hle => ?_⟩,
    fun hsmall hne hle => ?_, fun expansions => ?_, breaksOff_script hbound ds⟩
  · rintro rfl
    rfl
  · rw [commands_script limits hbound hne]
    cases hlong : firstTooLong limits.bound ds with
    | none => exact absurd hrun ((firstTooLong_eq_none_iff hbound).mp hlong)
    | some i => exact ⟨1 + i, rfl⟩
  · rw [hshort hne hrun, if_pos hlt]
  · rw [hshort hne hrun, if_neg (Int.not_lt.mpr hle)]
  · rw [hshort hne (by rintro ⟨d, n, -, hlt⟩; omega), if_neg (Int.not_lt.mpr hle)]
  · by_cases hne : ds = []
    · subst hne
      rfl
    · rw [commands_script limits hbound hne]
      exact commands_script { limits with expansions } hbound hne

/-- Forty-five moves in three loops are read back, unless one less is the most; a hundred in one
loop are not. -/
theorem commands_listing_longRuns :
    (commands {} (script 20 (List.replicate 45 .right ++ [.down])) =
        .ok (List.replicate 45 .right ++ [.down]) ∧
      commands { moves := 45 } (script 20 (List.replicate 45 .right ++ [.down])) =
        .error (.tooManyMoves 46 45)) ∧
      ∃ line, commands { bound := 100 } (script 100 (List.replicate 100 .right)) =
        .error (.badHeader line) := by
  refine ⟨⟨?_, ?_⟩, ?_⟩
  · exact (commands_listing {} (by decide) _).2.2.2.1 (by decide) (by decide) (by decide)
  · refine ((commands_listing { moves := 45 } (by decide) _).2.2.1 (by decide) ?_).1 (by decide)
    rintro ⟨d, n, -, hlt⟩
    dsimp only at hlt
    omega
  · refine (commands_listing { bound := 100 } (by decide) _).2.1 (by decide) ?_
    exact ⟨.right, 100, ⟨[], [], by simp, by decide, by simp, by simp⟩, by decide⟩

end ScriptedMaze.Script
