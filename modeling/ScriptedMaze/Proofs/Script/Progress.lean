import ScriptedMaze.Proofs.Script.Steps

/-!
# A reading gets on, and never past the end

Tokens need not come from a script to be read: they may stand in any order, and
the one for the end of the script may come early, more than once, or not at all.
Whatever they are, a reading comes to its end.

* Each step that a reading takes consumes at least one token, and none of them is
  the end (`Reading.Stepped.ne_finish`). So there are no more steps than tokens in
  front of the first end (`Reading.Steps.exists_taken`), and after some of them a
  step fails or the first end has come (`Reading.exists_steps`).
* On the line of a loop without braces every token ends the loop's body, or is
  consumed, unless it is the end (`Loop.takeLine_cons`).
* Nothing looks behind the first end. If the tokens are cut off there, every part
  of a loop is taken as before, every step does what it did before, and the whole
  comes to the same, be that a tree or a fault (`Tree.ofTokens_beforeEnd`).
-/

namespace ScriptedMaze.Script

open Loop

variable {t : Token} {a b ts later taken : List Token} {maxBound maxDepth : Int}

/-! ### The first end -/

/-- The tokens in front of the first end of the script: all, if there is none. -/
def beforeEnd (ts : List Token) : List Token := ts.takeWhile (·.lexeme ≠ .finish)

/-- The tokens from the first end of the script on. -/
def fromEnd (ts : List Token) : List Token := ts.dropWhile (·.lexeme ≠ .finish)

theorem beforeEnd_cons (ht : t.lexeme ≠ .finish) : beforeEnd (t :: ts) = t :: beforeEnd ts := by
  simp [beforeEnd, ht]

theorem beforeEnd_of_stop (h : ∀ t ∈ ts.head?, t.lexeme = .finish) : beforeEnd ts = [] := by
  cases ts with
  | nil => rfl
  | cons t ts => simp [beforeEnd, h t rfl]

theorem fromEnd_of_stop (h : ∀ t ∈ ts.head?, t.lexeme = .finish) : fromEnd ts = ts := by
  cases ts with
  | nil => rfl
  | cons t ts => simp [fromEnd, h t rfl]

theorem beforeEnd_append (h : ∀ t ∈ a, t.lexeme ≠ .finish) :
    beforeEnd (a ++ b) = a ++ beforeEnd b :=
  List.takeWhile_append_of_pos (by simpa using h)

theorem fromEnd_append (h : ∀ t ∈ a, t.lexeme ≠ .finish) : fromEnd (a ++ b) = fromEnd b :=
  List.dropWhile_append_of_pos (by simpa using h)

/-! ### What is consumed -/

namespace Reading

variable {n : Nat} {r r' : Reading}

/-- **No step consumes the end of the script**, unless it begins with it. -/
theorem Stepped.ne_finish (h : Stepped maxBound maxDepth r (t :: taken) r')
    (ht : t.lexeme ≠ .finish) : ∀ u ∈ t :: taken, u.lexeme ≠ .finish := by
  generalize hall : t :: taken = all at h
  cases h with
  | group | close | move | skip =>
    cases hall
    exact List.forall_mem_singleton.mpr ht
  | run hopening _ hinner _ =>
    intro u hu
    rcases List.mem_append.mp hu with hu | hu
    · exact hopening.ne_finish hu
    · exact hinner.ne_finish hu
  | block hopening _ ho _ =>
    intro u hu
    rcases List.mem_append.mp hu with hu | hu
    · exact hopening.ne_finish hu
    · rw [List.mem_singleton.mp hu, ho]
      exact nofun

/-- **A step in front of the end** fails, or consumes tokens in front of the end. -/
theorem step_cases (maxBound maxDepth : Int) (r : Reading) (ht : t.lexeme ≠ .finish)
    (later : List Token) :
    (∃ f, r.step maxBound maxDepth t later = .error f) ∨
      ∃ more r', r.step maxBound maxDepth t later = .ok r' ∧ later = more ++ r'.rest ∧
        ∀ u ∈ t :: more, u.lexeme ≠ .finish := by
  cases hstep : r.step maxBound maxDepth t later with
  | error f => exact Or.inl ⟨f, rfl⟩
  | ok r' =>
    obtain ⟨more, hmore, hstepped⟩ := stepped_of_step hstep
    exact Or.inr ⟨more, r', rfl, hmore, hstepped.ne_finish ht⟩

/-- **So many steps** of a reading, all of which succeed. -/
inductive Steps (maxBound maxDepth : Int) : Nat → Reading → Reading → Prop
  /-- No step. -/
  | none (r : Reading) : Steps maxBound maxDepth 0 r r
  /-- A step, and those after it. -/
  | next {n : Nat} {r r₁ r' : Reading} {t : Token} {later : List Token} : r.rest = t :: later →
      t.lexeme ≠ .finish → r.step maxBound maxDepth t later = .ok r₁ →
      Steps maxBound maxDepth n r₁ r' → Steps maxBound maxDepth (n + 1) r r'

/-- **Steps consume tokens in front of the end**, each of them at least one. -/
theorem Steps.exists_taken (h : Steps maxBound maxDepth n r r') :
    ∃ taken, r.rest = taken ++ r'.rest ∧ (∀ t ∈ taken, t.lexeme ≠ .finish) ∧
      n ≤ taken.length := by
  induction h with
  | none r => exact ⟨[], rfl, nofun, Nat.zero_le _⟩
  | @next n r r₁ r' t later hrest ht hstep _ ih =>
    obtain ⟨more, rfl, hstepped⟩ := stepped_of_step hstep
    obtain ⟨taken, htaken, hne, hlen⟩ := ih
    refine ⟨t :: more ++ taken, ?_, ?_, ?_⟩
    · rw [hrest, htaken, List.append_assoc, List.cons_append]
    · exact List.forall_mem_append.mpr ⟨hstepped.ne_finish ht, hne⟩
    · rw [List.length_append, List.length_cons]
      omega

/-- **A reading takes some steps**, and then the end has come or a step fails. -/
theorem exists_steps (maxBound maxDepth : Int) (r : Reading) :
    ∃ n r', Steps maxBound maxDepth n r r' ∧
      ((∀ t ∈ r'.rest.head?, t.lexeme = .finish) ∧ r.run maxBound maxDepth = .ok r' ∨
        ∃ t later f, r'.rest = t :: later ∧ t.lexeme ≠ .finish ∧
          r'.step maxBound maxDepth t later = .error f ∧ r.run maxBound maxDepth = .error f) := by
  fun_induction Reading.run maxBound maxDepth r with
  | case1 r hrest => exact ⟨0, r, .none r, Or.inl ⟨by simp [hrest], rfl⟩⟩
  | case2 r t later hrest ht => exact ⟨0, r, .none r, Or.inl ⟨by simp [hrest, ht], rfl⟩⟩
  | case3 r t later hrest ht f hstep =>
    exact ⟨0, r, .none r, Or.inr ⟨t, later, f, hrest, ht, hstep, rfl⟩⟩
  | case4 r t later hrest ht r₁ hstep ih =>
    obtain ⟨n, r', hsteps, hend⟩ := ih
    exact ⟨n + 1, r', .next hrest ht hstep hsteps, hend⟩

/-- A script may end only where no loop's brace is open. -/
theorem openLoops_of_result {nodes : List Node} (h : r.result = .ok nodes) :
    r.openLoops = 0 ∧ nodes = r.nodes.reverse := by
  unfold result at h
  split at h
  · cases h
  · rename_i hnone
    cases h
    rw [List.findSome?_eq_none_iff] at hnone
    exact ⟨List.length_eq_zero_iff.mpr (List.filterMap_eq_nil_iff.mpr hnone), rfl⟩

end Reading

/-! ### The line of a body without braces -/

/-- **Every token on the line of a body** ends the body, in front of it or behind it,
or is consumed, and then it is not the end of the script. -/
theorem Loop.takeLine_cons (line loopLine : Nat) (inBlock : Bool) (t : Token) (ts : List Token) :
    (∃ f, takeLine line loopLine inBlock (t :: ts) = .error f) ∨
      takeLine line loopLine inBlock (t :: ts) = .ok ([], t :: ts) ∨
      t.lexeme = .semicolon ∧ takeLine line loopLine inBlock (t :: ts) = .ok ([], ts) ∨
      t.lexeme ≠ .finish ∧ takeLine line loopLine inBlock (t :: ts) =
        (takeLine line loopLine inBlock ts).map fun p => ((moveNode? t).toList ++ p.1, p.2) := by
  cases hin : inRun line t with
  | true =>
    rw [takeLine_of_inRun hin]
    obtain ⟨-, -, -, -, hfin⟩ := inRun_eq_true.mp hin
    split
    · exact Or.inl ⟨_, rfl⟩
    · exact Or.inr (Or.inr (Or.inr ⟨hfin, rfl⟩))
  | false =>
    rw [takeLine_of_not_inRun hin]
    split
    · exact Or.inl ⟨_, rfl⟩
    · rcases afterSemicolon_cases line (t :: ts) with heq | ⟨s, hs, heq⟩
      · rw [heq]
        exact Or.inr (Or.inl rfl)
      · obtain ⟨rfl, hts⟩ := List.cons_eq_cons.mp heq
        rw [← hts]
        exact Or.inr (Or.inr (Or.inl ⟨hs, rfl⟩))

/-! ### Nothing looks behind the first end -/

namespace Loop

theorem atLoop_beforeEnd (ts : List Token) : atLoop (beforeEnd ts) = atLoop ts := by
  rcases ts with _ | ⟨t, _ | ⟨u, ts⟩⟩
  · rfl
  · by_cases ht : t.lexeme = .finish <;> simp [beforeEnd, ht, atLoop]
  · by_cases ht : t.lexeme = .finish
    · simp [beforeEnd, ht, atLoop]
    · by_cases hu : u.lexeme = .finish <;> simp [beforeEnd, ht, hu, atLoop]

theorem dropLexemes_beforeEnd {ks : List Lexeme} (hks : .finish ∉ ks) (ts : List Token) :
    dropLexemes ks (beforeEnd ts) = (dropLexemes ks ts).map beforeEnd := by
  fun_induction dropLexemes ks ts with
  | case1 => rfl
  | case2 => rfl
  | case3 ks t ts ih =>
    rw [List.mem_cons, not_or] at hks
    rw [beforeEnd_cons (Ne.symm hks.1), dropLexemes, if_pos rfl, ih hks.2]
  | case4 k ks t ts hne =>
    by_cases ht : t.lexeme = .finish
    · rw [beforeEnd_of_stop (by simp [ht])]
      rfl
    · rw [beforeEnd_cons ht, dropLexemes, if_neg hne]
      rfl

theorem takeHeader_beforeEnd (ts : List Token) :
    takeHeader (beforeEnd ts) = (takeHeader ts).map (Prod.map id beforeEnd) := by
  unfold takeHeader
  rw [dropLexemes_beforeEnd (by decide)]
  rcases dropLexemes headerOpening ts with _ | _ | ⟨t, rest⟩
  · rfl
  · rfl
  · rw [Option.map_some]
    by_cases ht : t.lexeme = .finish
    · rw [beforeEnd_of_stop (by simp [ht])]
      obtain ⟨k, l, c⟩ := t
      cases ht
      rfl
    · rw [beforeEnd_cons ht]
      obtain ⟨k, l, c⟩ := t
      cases k with
      | number digits =>
        dsimp only
        split
        · rw [dropLexemes_beforeEnd (by decide), Option.map_map, Option.map_map]
          rfl
        · rfl
      | _ => rfl

theorem takeLine_beforeEnd (line loopLine : Nat) (inBlock : Bool) (ts : List Token) :
    takeLine line loopLine inBlock (beforeEnd ts) =
      (takeLine line loopLine inBlock ts).map (Prod.map id beforeEnd) := by
  induction ts with
  | nil => rfl
  | cons t ts ih =>
    by_cases ht : t.lexeme = .finish
    · rw [takeLine, if_pos (Or.inl ht), beforeEnd_of_stop (by simp [ht])]
      change Except.ok ([], []) = Except.ok ([], beforeEnd (t :: ts))
      rw [beforeEnd_of_stop (by simp [ht])]
    · have hloop := atLoop_beforeEnd (t :: ts)
      rw [beforeEnd_cons ht] at hloop ⊢
      cases hin : inRun line t with
      | false =>
        rw [takeLine_of_not_inRun hin, takeLine_of_not_inRun hin]
        split
        · rfl
        · dsimp only [afterSemicolon]
          split
          · rfl
          · change _ = Except.ok ([], beforeEnd (t :: ts))
            rw [beforeEnd_cons ht]
      | true =>
        rw [takeLine_of_inRun hin, takeLine_of_inRun hin, hloop, ih]
        split
        · rfl
        · cases takeLine line loopLine inBlock ts <;> rfl

theorem takeBody_beforeEnd (loopLine : Nat) (inBlock : Bool) (ts : List Token) :
    takeBody loopLine inBlock (beforeEnd ts) =
      (takeBody loopLine inBlock ts).map (Prod.map id beforeEnd) := by
  cases ts with
  | nil => rfl
  | cons t ts =>
    by_cases ht : t.lexeme = .finish
    · rw [beforeEnd_of_stop (by simp [ht]), takeBody, takeBody, if_pos ht]
      rfl
    · have hline := takeLine_beforeEnd t.line loopLine inBlock (t :: ts)
      rw [beforeEnd_cons ht] at hline ⊢
      rw [takeBody, takeBody, if_neg ht, if_neg ht, hline]

end Loop

namespace Reading

/-- A reading whose tokens are cut off at the first end of the script. -/
def cut (r : Reading) : Reading := { r with rest := beforeEnd r.rest }

theorem closeBrace_cut (r : Reading) (later : List Token) :
    r.cut.closeBrace (beforeEnd later) = (r.closeBrace later).cut := by
  obtain ⟨braces, nodes, rest⟩ := r
  rcases braces with _ | ⟨_ | _, outer⟩ <;> rfl

theorem enterBody_cut (r : Reading) (count line : Nat) (later : List Token) :
    r.cut.enterBody maxDepth count line (beforeEnd later) =
      (r.enterBody maxDepth count line later).map cut := by
  have hbody := takeBody_beforeEnd line (!r.braces.isEmpty) later
  cases later with
  | nil => rfl
  | cons t later =>
    by_cases ht : t.lexeme = .finish
    · rw [beforeEnd_of_stop (by simp [ht]), enterBody_of_ne (by simp [ht]), takeBody, if_pos ht]
      rfl
    · rw [beforeEnd_cons ht] at hbody ⊢
      by_cases hbrace : t.lexeme = .openBrace
      · rw [enterBody_of_openBrace hbrace, enterBody_of_openBrace hbrace]
        change (if maxDepth < r.openLoops + 1 then _ else _) = _
        split <;> rfl
      · rw [enterBody_of_ne hbrace, enterBody_of_ne hbrace]
        have hbraces : r.cut.braces = r.braces := rfl
        rw [hbraces, hbody]
        cases takeBody line (!r.braces.isEmpty) (t :: later) <;> rfl

theorem enterLoop_cut (r : Reading) (line : Nat) (later : List Token) :
    r.cut.enterLoop maxBound maxDepth line (beforeEnd later) =
      (r.enterLoop maxBound maxDepth line later).map cut := by
  unfold enterLoop
  rw [takeHeader_beforeEnd]
  rcases takeHeader later with _ | ⟨count, rest⟩
  · rfl
  · simp only [Option.map_some, Prod.map, id_eq]
    rw [enterBody_cut]
    split <;> rfl

/-- **A step does not look behind the end.** -/
theorem step_cut (r : Reading) (ht : t.lexeme ≠ .finish) (later : List Token) :
    r.cut.step maxBound maxDepth t (beforeEnd later) =
      (r.step maxBound maxDepth t later).map cut := by
  have hloop := atLoop_beforeEnd (t :: later)
  rw [beforeEnd_cons ht] at hloop
  unfold step
  rw [hloop, closeBrace_cut, enterLoop_cut]
  cases t.lexeme <;> first | rfl | (dsimp only; split <;> rfl)

/-- **A reading goes the same way if nothing stands behind the first end.** -/
theorem run_cut (r : Reading) :
    r.cut.run maxBound maxDepth = (r.run maxBound maxDepth).map cut := by
  fun_induction Reading.run maxBound maxDepth r with
  | case1 r hrest => exact run_of_stop (by simp [cut, hrest, beforeEnd])
  | case2 r t later hrest ht => exact run_of_stop (by simp [cut, hrest, beforeEnd, ht])
  | case3 r t later hrest ht f hstep =>
    have hrest' : r.cut.rest = t :: beforeEnd later := by rw [cut, hrest, beforeEnd_cons ht]
    exact run_of_step_eq_error hrest' ht (by rw [step_cut r ht, hstep]; rfl)
  | case4 r t later hrest ht r' hstep ih =>
    have hrest' : r.cut.rest = t :: beforeEnd later := by rw [cut, hrest, beforeEnd_cons ht]
    have hstep' : r.cut.step maxBound maxDepth t (beforeEnd later) = .ok r'.cut := by
      rw [step_cut r ht, hstep]
      rfl
    rw [run_of_step hrest' ht hstep', ih]

end Reading

/-- **The tree of a script, or its fault, does not depend on what stands behind the first
end.** -/
theorem Tree.ofTokens_beforeEnd (ts : List Token) :
    ofTokens maxBound maxDepth (beforeEnd ts) = ofTokens maxBound maxDepth ts := by
  have hrun : (Reading.cut { rest := ts }).run maxBound maxDepth =
      (Reading.run maxBound maxDepth { rest := ts }).map Reading.cut := Reading.run_cut _
  have hcut : ({ rest := beforeEnd ts } : Reading) = Reading.cut { rest := ts } := rfl
  unfold ofTokens
  rw [hcut, hrun]
  cases Reading.run maxBound maxDepth { rest := ts } <;> rfl

/-! ### The whole reading -/

/-- **How a reading of the tokens gets on.** -/
structure GetsOn (maxBound maxDepth : Int) (ts : List Token) : Prop where
  /-- Whatever steps were taken, they consumed tokens in front of the first end, each of
  them at least one. -/
  taken : ∀ (n : Nat) (r : Reading), Reading.Steps maxBound maxDepth n { rest := ts } r →
    ∃ taken, ts = taken ++ r.rest ∧ taken <+: beforeEnd ts ∧ n ≤ taken.length
  /-- As long as the first end has not come, the next step fails, or consumes the next
  token and perhaps more in front of the first end. -/
  step : ∀ (n : Nat) (r : Reading), Reading.Steps maxBound maxDepth n { rest := ts } r →
    ∀ (t : Token) (later : List Token), r.rest = t :: later → t.lexeme ≠ .finish →
      (∃ f, r.step maxBound maxDepth t later = .error f) ∨
        ∃ more r', r.step maxBound maxDepth t later = .ok r' ∧ later = more ++ r'.rest ∧
          t :: more <+: beforeEnd r.rest
  /-- After no more steps than there are tokens in front of the first end, that end has
  come, or a step fails, and with it the reading. -/
  ends : ∃ n r, n ≤ (beforeEnd ts).length ∧ Reading.Steps maxBound maxDepth n { rest := ts } r ∧
    (r.rest = fromEnd ts ∧ Tree.ofTokens maxBound maxDepth ts = r.result ∨
      ∃ t later f, r.rest = t :: later ∧ t.lexeme ≠ .finish ∧
        r.step maxBound maxDepth t later = .error f ∧
        Tree.ofTokens maxBound maxDepth ts = .error f)
  /-- What stands from the first end on makes no difference. -/
  unread : Tree.ofTokens maxBound maxDepth (beforeEnd ts) = Tree.ofTokens maxBound maxDepth ts
  /-- When there is a tree, the reading has come to the first end, and no loop is open. -/
  tree : ∀ nodes, Tree.ofTokens maxBound maxDepth ts = .ok nodes →
    ∃ r, Reading.run maxBound maxDepth { rest := ts } = .ok r ∧ r.rest = fromEnd ts ∧
      r.openLoops = 0 ∧ nodes = r.nodes.reverse

/-- **Every reading gets on and comes to its end**, whatever tokens are read and whatever
is allowed, and so does the line of every body without braces. A reading that breaks off
for want of room (`Script.commands?`) has come to its end as well, but earlier, and is not
considered here. -/
theorem reading_getsOn (maxBound maxDepth : Int) :
    (∀ ts, GetsOn maxBound maxDepth ts) ∧
      ∀ (line loopLine : Nat) (inBlock : Bool) (t : Token) (ts : List Token),
        (∃ f, takeLine line loopLine inBlock (t :: ts) = .error f) ∨
          takeLine line loopLine inBlock (t :: ts) = .ok ([], t :: ts) ∨
          t.lexeme = .semicolon ∧ takeLine line loopLine inBlock (t :: ts) = .ok ([], ts) ∨
          t.lexeme ≠ .finish ∧ takeLine line loopLine inBlock (t :: ts) =
            (takeLine line loopLine inBlock ts).map fun p =>
              ((moveNode? t).toList ++ p.1, p.2) := by
  refine ⟨fun ts => ?_, Loop.takeLine_cons⟩
  obtain ⟨n, r, hsteps, hend⟩ := Reading.exists_steps maxBound maxDepth { rest := ts }
  obtain ⟨taken, htaken, hne, hlen⟩ := hsteps.exists_taken
  have hfrom : (∀ t ∈ r.rest.head?, t.lexeme = .finish) → r.rest = fromEnd ts := by
    intro hstop
    change ts = taken ++ r.rest at htaken
    rw [htaken, fromEnd_append hne, fromEnd_of_stop hstop]
  constructor
  case taken =>
    intro n r h
    obtain ⟨taken, htaken, hne, hlen⟩ := h.exists_taken
    change ts = taken ++ r.rest at htaken
    refine ⟨taken, htaken, ?_, hlen⟩
    rw [htaken, beforeEnd_append hne]
    exact List.prefix_append _ _
  case step =>
    intro n r _ t later hrest ht
    rcases r.step_cases maxBound maxDepth ht later with hfail | ⟨more, r', hstep, rfl, hmore⟩
    · exact Or.inl hfail
    · refine Or.inr ⟨more, r', hstep, rfl, ?_⟩
      rw [hrest, ← List.cons_append, beforeEnd_append hmore]
      exact List.prefix_append _ _
  case ends =>
    have hle : n ≤ (beforeEnd ts).length := by
      change ts = taken ++ r.rest at htaken
      rw [htaken, beforeEnd_append hne, List.length_append]
      omega
    refine ⟨n, r, hle, hsteps, ?_⟩
    rcases hend with ⟨hstop, hrun⟩ | ⟨t, later, f, hrest, ht, hstep, hrun⟩
    · exact Or.inl ⟨hfrom hstop, by rw [Tree.ofTokens, hrun]⟩
    · exact Or.inr ⟨t, later, f, hrest, ht, hstep, by rw [Tree.ofTokens, hrun]⟩
  case unread => exact Tree.ofTokens_beforeEnd ts
  case tree =>
    intro nodes h
    rcases hend with ⟨hstop, hrun⟩ | ⟨t, later, f, -, -, -, hrun⟩
    · rw [Tree.ofTokens, hrun] at h
      exact ⟨r, hrun, hfrom hstop, Reading.openLoops_of_result h⟩
    · rw [Tree.ofTokens, hrun] at h
      cases h

end ScriptedMaze.Script
