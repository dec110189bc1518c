import ScriptedMaze.Proofs.Script.LineByLine

/-!
# Scripts that are put together from lines

A script whose lines stand alone (`Script.StandsAlone`) asks for what its lines ask for, one
after the other (`Script.commands_intercalate`): there is nothing forbidden in it, its tree
is made of the trees of its lines, and so are its moves and its cost.

The lines are put together with line feeds. Everything here goes through them from the
first to the last, in the way in which a text of two lines and more is a line, a line feed
and the text below it (`Script.toList_intercalate_cons_cons`).
-/

namespace ScriptedMaze.Script

variable {maxBound maxDepth : Int} {limits : Limits} {line : String} {lines : List String}
  {cs : List Char}

/-! ### Texts of several lines -/

/-- Two lines and more are a line, a line feed and the lines below it. -/
theorem toList_intercalate_cons_cons (line line' : String) (lines : List String) :
    ("\n".intercalate (line :: line' :: lines)).toList =
      line.toList ++ '\n' :: ("\n".intercalate (line' :: lines)).toList := by
  rw [String.toList_intercalate, String.toList_intercalate, List.map_cons, List.map_cons,
    List.intercalate_cons_cons, List.append_assoc]
  rfl

theorem toList_intercalate_singleton (line : String) :
    ("\n".intercalate [line]).toList = line.toList := by
  rw [String.toList_intercalate, List.map_singleton, List.intercalate_singleton]

/-- What holds of a line feed holds of all characters if it holds of those on each line. -/
theorem forall_mem_intercalate {P : Char → Prop} (hfeed : P '\n') :
    (∀ c ∈ ("\n".intercalate lines).toList, P c) ↔ ∀ line ∈ lines, ∀ c ∈ line.toList, P c := by
  induction lines with
  | nil => simp
  | cons line lines ih =>
    cases lines with
    | nil => simp
    | cons line' lines =>
      rw [toList_intercalate_cons_cons, List.forall_mem_append, List.forall_mem_cons, ih,
        List.forall_mem_cons (l := line' :: lines)]
      simp only [hfeed, true_and]

theorem blank_intercalate :
    Text.blank ("\n".intercalate lines) = true ↔ ∀ line ∈ lines, Text.blank line = true := by
  simp only [Text.blank, List.all_eq_true]
  exact forall_mem_intercalate (P := fun c => Text.isBlank c = true) (by decide)

/-- A line end other than a line feed is in a script only if it is on a line. -/
theorem not_mem_return_intercalate (h : ∀ line ∈ lines, '\r' ∉ line.toList) :
    '\r' ∉ ("\n".intercalate lines).toList := by
  have hall := (forall_mem_intercalate (P := (· ≠ '\r')) (by decide)).mpr
    fun line hline c hc heq => h line hline (heq ▸ hc)
  exact fun hmem => hall _ hmem rfl

/-- Nothing is forbidden in a script if nothing is on its lines. -/
theorem findForbidden_intercalate (h : ∀ line ∈ lines, checkAllowed line = .ok ()) (n : Nat) :
    findForbidden n ("\n".intercalate lines).toList = none := by
  induction lines generalizing n with
  | nil => exact findForbidden.eq_1 n
  | cons line lines ih =>
    obtain ⟨hline, hlines⟩ := List.forall_mem_cons.mp h
    have hnone := (findForbidden_eq_none_congr n 1 line.toList).mpr (checkAllowed_eq_ok.mp hline)
    cases lines with
    | nil => rwa [toList_intercalate_singleton]
    | cons line' lines =>
      rw [toList_intercalate_cons_cons, findForbidden_append_lineFeed]
      exact ⟨hnone, ih hlines _⟩

/-! ### Lines that stand alone -/

/-- The tree of a line; a line that is rejected has none. -/
def lineTree (limits : Limits) (line : String) : List Node :=
  (tree limits line).toOption.getD []

/-- What the tree of a line costs. -/
def lineCost (limits : Limits) (line : String) : Nat :=
  cost (lineTree limits line)

/-- The moves that a line asks for; a line that is rejected asks for none. -/
def lineMoves (limits : Limits) (line : String) : List Direction :=
  (lineCommands limits line).toOption.getD []

/-- **A line that stands alone**: it is accepted alone, and nothing of it can reach over its
end. -/
structure StandsAlone (limits : Limits) (line : String) : Prop where
  not_mem_lineFeed : '\n' ∉ line.toList
  not_mem_return : '\r' ∉ line.toList
  /-- No comment is opened that could reach over the end. -/
  not_infix : ¬['/', '*'] <:+: line.toList
  /-- No loop is begun that would go on below. -/
  last_ne : ∀ t ∈ (tokens line).dropLast.getLast?, t.lexeme ≠ .word "for"
  accepted : ∃ ds, lineCommands limits line = .ok ds

/-- There is nothing to read in a script that consists of its end. -/
theorem Tree.ofTokens_of_finish {e : Token} (he : e.lexeme = .finish) :
    Tree.ofTokens maxBound maxDepth [e] = .ok [] := by
  rw [Tree.ofTokens, Reading.run_of_finish rfl he]
  rfl

/-- What has become of a source whose moves are known. -/
theorem exists_tree_of_commands {source : String} {ds : List Direction}
    (h : commands limits source = .ok ds) :
    checkAllowed source = .ok () ∧
      ∃ nodes, tree limits source = .ok nodes ∧ unrolled nodes = ds := by
  rcases commands_cases limits source with
    he | ⟨f, -, he⟩ | ⟨f, -, he⟩ | ⟨line, he⟩ | ⟨hallowed, nodes, htree, -, he⟩
  · cases h.symm.trans he
  · cases h.symm.trans he
  · cases h.symm.trans he
  · cases h.symm.trans he
  · refine ⟨hallowed, nodes, htree, ?_⟩
    rw [h] at he
    split at he <;> cases he
    rfl

namespace StandsAlone

theorem isLine (h : StandsAlone limits line) : IsLine line.toList :=
  ⟨h.not_mem_lineFeed, h.not_infix⟩

theorem tokens_eq (h : StandsAlone limits line) : tokens line = Token.scanFrom {} line.toList := by
  rw [tokens, unifyLineEnds_of_not_mem h.not_mem_return]

/-- The tokens of a line, wherever it stands. -/
theorem exists_tokens (h : StandsAlone limits line) :
    ∃ us e, LineTokens 1 us ∧ e.lexeme = .finish ∧ tokens line = us ++ [e] ∧
      ∀ n, Token.scanFrom ⟨n, 1⟩ line.toList = us.map (Token.onLine n) ++ [e.onLine n] := by
  obtain ⟨us, e, heq, he, hus⟩ := Token.scanFrom_eq {} line.toList
  have honLine : ∀ n, Token.scanFrom ⟨n, 1⟩ line.toList =
      us.map (Token.onLine n) ++ [e.onLine n] := by
    intro n
    rw [Token.scanFrom_eq_map_onLine (p := ⟨n, 1⟩) (q := {}) h.not_mem_lineFeed rfl, heq,
      List.map_append]
    rfl
  have hsame : us = us.map (Token.onLine 1) :=
    List.append_inj_left' (heq.symm.trans (honLine 1)) rfl
  have hlast := h.last_ne
  rw [h.tokens_eq, heq, List.dropLast_concat] at hlast
  refine ⟨us, e, ⟨fun t ht => ?_, hus, hlast⟩, he, h.tokens_eq.trans heq, honLine⟩
  rw [hsame] at ht
  obtain ⟨u, -, rfl⟩ := List.mem_map.mp ht
  rfl

/-- What has become of a line. -/
theorem exists_tree (h : StandsAlone limits line) :
    checkAllowed line = .ok () ∧ tree limits line = .ok (lineTree limits line) ∧
      unrolled (lineTree limits line) = lineMoves limits line := by
  obtain ⟨ds, hds⟩ := h.accepted
  suffices hline : checkAllowed line = .ok () ∧
      ∃ nodes, tree limits line = .ok nodes ∧ unrolled nodes = ds by
    obtain ⟨hallowed, nodes, htree, hmoves⟩ := hline
    refine ⟨hallowed, ?_, ?_⟩
    · rw [lineTree, htree]
      rfl
    · rw [lineTree, lineMoves, htree, hds]
      exact hmoves
  cases hblank : Text.blank line with
  | false =>
    rw [lineCommands, hblank] at hds
    exact exists_tree_of_commands hds
  | true =>
    rw [lineCommands, hblank] at hds
    cases hds
    refine ⟨checkAllowed_eq_ok.mpr (findForbidden_of_blank hblank 1), [], ?_, rfl⟩
    rw [tree, h.tokens_eq, Token.scanFrom_of_blank hblank]
    exact Tree.ofTokens_of_finish rfl

end StandsAlone

/-! ### The whole script -/

/-- **The lines of a script are read as each of them is read alone.** -/
theorem Reading.exists_run_of_lines {R : Reading} {n : Nat} (hne : lines ≠ [])
    (h : ∀ line ∈ lines, StandsAlone limits line) (hR : ∀ brace ∈ R.braces, brace = .group)
    (hrest : R.rest = Token.scanFrom ⟨n, 1⟩ ("\n".intercalate lines).toList) :
    ∃ R', R.run limits.bound limits.expansions = .ok R' ∧ (∀ brace ∈ R'.braces, brace = .group) ∧
      SameMoves R'.nodes.reverse (R.nodes.reverse ++ lines.flatMap (lineTree limits)) := by
  induction lines generalizing n R with
  | nil => exact absurd rfl hne
  | cons line lines ih =>
    obtain ⟨hline, hlines⟩ := List.forall_mem_cons.mp h
    obtain ⟨us, e, hus, he, htokens, honLine⟩ := hline.exists_tokens
    obtain ⟨-, htree, -⟩ := hline.exists_tree
    rw [tree, htokens] at htree
    cases lines with
    | nil =>
      rw [toList_intercalate_singleton, honLine] at hrest
      have hbelow : Below n [e.onLine n] := by
        rintro t ⟨⟩
        exact Or.inl he
      obtain ⟨R₁, hrun, hrest₁, hgroups, hsame⟩ :=
        exists_run_of_line hus he htree hbelow hR hrest
      rw [run_of_finish hrest₁ (by exact he)] at hrun
      exact ⟨R₁, hrun, hgroups, by simpa using hsame⟩
    | cons line' lines =>
      rw [toList_intercalate_cons_cons, Token.scanFrom_append_lineFeed hline.isLine, honLine,
        List.dropLast_concat] at hrest
      have hbelow : Below n
          (Token.scanFrom ⟨n + 1, 1⟩ ("\n".intercalate (line' :: lines)).toList) := by
        intro t ht
        have hle := Token.line_le_of_mem_scanFrom (List.mem_of_mem_head? ht)
        exact Or.inr (Nat.ne_of_gt hle)
      obtain ⟨R₁, hrun, hrest₁, hgroups, hsame⟩ :=
        exists_run_of_line hus he htree hbelow hR hrest
      obtain ⟨R', hrun', hgroups', hsame'⟩ := ih (List.cons_ne_nil _ _) hlines hgroups hrest₁
      refine ⟨R', hrun.trans hrun', hgroups', hsame'.trans ?_⟩
      have hcons : (line :: line' :: lines).flatMap (lineTree limits) =
          lineTree limits line ++ (line' :: lines).flatMap (lineTree limits) := List.flatMap_cons
      rw [hcons, ← List.append_assoc]
      exact hsame.append (.refl _)

/-- **The tree of a script is made of the trees of its lines.** -/
theorem exists_tree_intercalate (hne : lines ≠ []) (h : ∀ line ∈ lines, StandsAlone limits line) :
    ∃ nodes, tree limits ("\n".intercalate lines) = .ok nodes ∧
      SameMoves nodes (lines.flatMap (lineTree limits)) := by
  obtain ⟨R, hrun, hgroups, hsame⟩ := Reading.exists_run_of_lines
    (R := { rest := Token.scanFrom ⟨1, 1⟩ ("\n".intercalate lines).toList }) hne h
    (fun brace hbrace => absurd hbrace List.not_mem_nil) rfl
  have hclosed : R.braces.findSome? OpenBrace.loopLine? = none :=
    List.findSome?_eq_none_iff.mpr fun brace hbrace => by rw [hgroups brace hbrace]; rfl
  refine ⟨R.nodes.reverse, ?_, hsame⟩
  have hreturn := not_mem_return_intercalate fun line hline => (h line hline).not_mem_return
  rw [tree, tokens, unifyLineEnds_of_not_mem hreturn, Tree.ofTokens, hrun]
  dsimp only
  rw [Reading.result, hclosed]

/-- The moves of trees one after the other. -/
theorem unrolled_flatMap (f : String → List Node) :
    unrolled (lines.flatMap f) = lines.flatMap fun line => unrolled (f line) := by
  induction lines with
  | nil => rfl
  | cons line lines ih => rw [List.flatMap_cons, List.flatMap_cons, unrolled_append, ih]

/-- The cost of trees one after the other. -/
theorem cost_flatMap (f : String → List Node) :
    cost (lines.flatMap f) = (lines.map fun line => cost (f line)).sum := by
  induction lines with
  | nil => rfl
  | cons line lines ih => rw [List.flatMap_cons, cost_append, ih, List.map_cons, List.sum_cons]

/-- **A script asks for the moves of its lines**, if they are not too many and do not cost too
much together. -/
theorem commands_intercalate (h : ∀ line ∈ lines, StandsAlone limits line)
    (hblank : ∃ line ∈ lines, Text.blank line = false)
    (hmoves : ((lines.flatMap (lineMoves limits)).length : Int) ≤ limits.moves)
    (hcost : ((lines.map (lineCost limits)).sum : Int) ≤ max limits.expansions 0) :
    commands limits ("\n".intercalate lines) = .ok (lines.flatMap (lineMoves limits)) := by
  obtain ⟨line, hline, hnot⟩ := hblank
  obtain ⟨nodes, htree, hsame⟩ := exists_tree_intercalate (List.ne_nil_of_mem hline) h
  have hblank : Text.blank ("\n".intercalate lines) = false := by
    refine eq_false_of_ne_true fun hall => ?_
    rw [blank_intercalate.mp hall line hline] at hnot
    cases hnot
  have hallowed : checkAllowed ("\n".intercalate lines) = .ok () :=
    checkAllowed_eq_ok.mpr
      (findForbidden_intercalate (fun line hline => (h line hline).exists_tree.1) 1)
  have hcost' : cost nodes = (lines.map (lineCost limits)).sum :=
    hsame.cost_eq.trans (cost_flatMap _)
  have hmoves' : unrolled nodes = lines.flatMap (lineMoves limits) := by
    rw [hsame.unrolled_eq, unrolled_flatMap]
    exact List.flatMap_congr fun line hline => (h line hline).exists_tree.2.2
  rw [commands_of_cost_le hblank hallowed htree (by rwa [hcost']), hmoves',
    if_neg (Int.not_lt.mpr hmoves)]

end ScriptedMaze.Script
