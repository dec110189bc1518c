import ScriptedMaze.Proofs.Script.Steps

/-!
# Columns do not matter

A reading looks at what its tokens are and on which lines they stand, and at nothing else: the
columns are there for whoever is told of a token. So the tokens may be made **bare** of their
columns (`Token.bare`), and the tree that is read is the same (`Tree.ofTokens_bare`).

Each of the functions of which a reading is made takes something from the front of the tokens.
What it takes from bare tokens is the same, and what it leaves is bare.
-/

namespace ScriptedMaze

namespace Token

/-- A token without its column. -/
def bare (t : Token) : Token := { t with column := 0 }

@[simp] theorem lexeme_bare (t : Token) : t.bare.lexeme = t.lexeme := rfl

@[simp] theorem line_bare (t : Token) : t.bare.line = t.line := rfl

/-- What a token is and on which line it stands. -/
def spot (t : Token) : Lexeme × Nat := (t.lexeme, t.line)

/-- Tokens that are the same on the same lines differ by their columns. -/
theorem map_bare_eq {ts us : List Token} (h : ts.map spot = us.map spot) :
    ts.map bare = us.map bare := by
  have hbare : bare = fun t => (⟨(spot t).1, (spot t).2, 0⟩ : Token) := rfl
  have hcongr := congrArg (List.map fun s : Lexeme × Nat => (⟨s.1, s.2, 0⟩ : Token)) h
  rwa [List.map_map, List.map_map] at hcongr

end Token

namespace Script

open Token

variable {maxBound maxDepth : Int}

namespace Loop

theorem atLoop_bare (ts : List Token) : atLoop (ts.map bare) = atLoop ts := by
  rcases ts with _ | ⟨t, _ | ⟨u, ts⟩⟩ <;> rfl

theorem dropLexemes_bare (ks : List Lexeme) (ts : List Token) :
    dropLexemes ks (ts.map bare) = (dropLexemes ks ts).map (List.map bare) := by
  fun_induction dropLexemes ks ts with
  | case1 => rfl
  | case2 => rfl
  | case3 ks t ts ih =>
    rw [List.map_cons, dropLexemes, if_pos (lexeme_bare t)]
    exact ih
  | case4 k ks t ts h =>
    rw [List.map_cons, dropLexemes, if_neg (by exact h)]
    rfl

theorem takeHeader_bare (ts : List Token) :
    takeHeader (ts.map bare) = (takeHeader ts).map (Prod.map id (List.map bare)) := by
  unfold takeHeader
  rw [dropLexemes_bare]
  rcases dropLexemes headerOpening ts with _ | _ | ⟨⟨k, l, c⟩, rest⟩
  · rfl
  · rfl
  · cases k with
    | number digits =>
      simp only [Option.map_some, List.map_cons, bare]
      split
      · rw [dropLexemes_bare, Option.map_map, Option.map_map]
        rfl
      · rfl
    | _ => rfl

theorem takeLine_bare (line loopLine : Nat) (inBlock : Bool) (ts : List Token) :
    takeLine line loopLine inBlock (ts.map bare) =
      (takeLine line loopLine inBlock ts).map (Prod.map id (List.map bare)) := by
  induction ts with
  | nil => rfl
  | cons t ts ih =>
    rw [List.map_cons]
    cases hin : inRun line t with
    | false =>
      rw [takeLine_of_not_inRun hin, takeLine_of_not_inRun (by exact hin), lexeme_bare, line_bare]
      split
      · rfl
      · dsimp only [afterSemicolon]
        rw [lexeme_bare, line_bare]
        split <;> rfl
    | true =>
      have hloop := atLoop_bare (t :: ts)
      rw [List.map_cons] at hloop
      rw [takeLine_of_inRun hin, takeLine_of_inRun (by exact hin), hloop, ih]
      split
      · rfl
      · cases takeLine line loopLine inBlock ts <;> rfl

theorem takeBody_bare (loopLine : Nat) (inBlock : Bool) (ts : List Token) :
    takeBody loopLine inBlock (ts.map bare) =
      (takeBody loopLine inBlock ts).map (Prod.map id (List.map bare)) := by
  cases ts with
  | nil => rfl
  | cons t ts =>
    rw [List.map_cons, takeBody, takeBody, lexeme_bare, line_bare, ← List.map_cons, takeLine_bare]
    split <;> rfl

end Loop

namespace Reading

open Loop

/-- A reading whose tokens are bare. -/
def bare (r : Reading) : Reading := { r with rest := r.rest.map Token.bare }

theorem closeBrace_bare (r : Reading) (later : List Token) :
    r.bare.closeBrace (later.map Token.bare) = (r.closeBrace later).bare := by
  obtain ⟨braces, nodes, rest⟩ := r
  rcases braces with _ | ⟨_ | _, outer⟩ <;> rfl

theorem enterBody_bare (r : Reading) (count line : Nat) (later : List Token) :
    r.bare.enterBody maxDepth count line (later.map Token.bare) =
      (r.enterBody maxDepth count line later).map bare := by
  cases later with
  | nil => rfl
  | cons t later =>
    rw [List.map_cons]
    by_cases hbrace : t.lexeme = .openBrace
    · rw [enterBody_of_openBrace hbrace, enterBody_of_openBrace (by exact hbrace)]
      change (if maxDepth < r.openLoops + 1 then _ else _) = _
      split <;> rfl
    · rw [enterBody_of_ne hbrace, enterBody_of_ne (by exact hbrace), ← List.map_cons,
        takeBody_bare]
      change (match (takeBody line (!r.braces.isEmpty) (t :: later)).map _ with
        | .error f => Except.error f
        | .ok (body, rest) => .ok (Reading.mk _ (.loop count body false line :: r.nodes) rest)) = _
      cases takeBody line (!r.braces.isEmpty) (t :: later) <;> rfl

theorem enterLoop_bare (r : Reading) (line : Nat) (later : List Token) :
    r.bare.enterLoop maxBound maxDepth line (later.map Token.bare) =
      (r.enterLoop maxBound maxDepth line later).map bare := by
  unfold enterLoop
  rw [takeHeader_bare]
  rcases takeHeader later with _ | ⟨count, rest⟩
  · rfl
  · simp only [Option.map_some, Prod.map, id_eq]
    rw [enterBody_bare]
    split <;> rfl

theorem step_bare (r : Reading) (t : Token) (later : List Token) :
    r.bare.step maxBound maxDepth t.bare (later.map Token.bare) =
      (r.step maxBound maxDepth t later).map bare := by
  have hloop := atLoop_bare (t :: later)
  rw [List.map_cons] at hloop
  unfold step
  rw [lexeme_bare, line_bare, hloop, closeBrace_bare, enterLoop_bare]
  cases t.lexeme <;> first | rfl | (dsimp only; split <;> rfl)

/-- **A reading of bare tokens goes the same way.** -/
theorem run_bare (r : Reading) :
    r.bare.run maxBound maxDepth = (r.run maxBound maxDepth).map bare := by
  fun_induction Reading.run maxBound maxDepth r with
  | case1 r hrest => exact run_of_stop (by simp [bare, hrest])
  | case2 r t later hrest ht => exact run_of_stop (by simp [bare, hrest, ht])
  | case3 r t later hrest ht f hstep =>
    have hrest' : r.bare.rest = t.bare :: later.map Token.bare := by rw [bare, hrest]; rfl
    exact run_of_step_eq_error hrest' ht (by rw [step_bare, hstep]; rfl)
  | case4 r t later hrest ht r' hstep ih =>
    have hrest' : r.bare.rest = t.bare :: later.map Token.bare := by rw [bare, hrest]; rfl
    have hstep' : r.bare.step maxBound maxDepth t.bare (later.map Token.bare) = .ok r'.bare := by
      rw [step_bare, hstep]
      rfl
    rw [run_of_step hrest' ht hstep', ih]

end Reading

/-- **The tree of a script does not depend on the columns of its tokens.** -/
theorem Tree.ofTokens_bare (ts : List Token) :
    ofTokens maxBound maxDepth (ts.map bare) = ofTokens maxBound maxDepth ts := by
  have hrun : (Reading.bare { rest := ts }).run maxBound maxDepth =
      (Reading.run maxBound maxDepth { rest := ts }).map Reading.bare := Reading.run_bare _
  have hbare : ({ rest := ts.map bare } : Reading) = Reading.bare { rest := ts } := rfl
  unfold ofTokens
  rw [hbare, hrun]
  cases Reading.run maxBound maxDepth { rest := ts } <;> rfl

end Script

end ScriptedMaze
