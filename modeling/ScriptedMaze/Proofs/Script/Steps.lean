import ScriptedMaze.Proofs.Script.Reads

/-!
# What the steps of a reading do

A step that succeeds takes the first token and perhaps more, and does one of six
things (`Reading.Stepped`). Whatever it takes is a balanced stretch, or one more
brace, or the last brace's partner, and so it keeps what has been read
(`Reading.Stepped.pending`), and a whole reading does as well
(`Reading.pending_of_run`).

Only at a loop can a step fail, and there it succeeds exactly if the loop is spelled
right, has not too many rounds and has a body that can be read
(`Reading.exists_step_iff`, `Reading.exists_enterBody_iff`).
-/

namespace ScriptedMaze.Script

open Loop

variable {t o f : Token} {ts head before rest later taken : List Token} {n : Nat}

namespace Reading

variable {r r' : Reading} {maxBound maxDepth : Int}

/-! ### Steps -/

/-- **What a step does**, with the tokens that it takes. -/
inductive Stepped (maxBound maxDepth : Int) (r : Reading) : (taken : List Token) → Reading → Prop
  /-- A brace that only groups is opened. -/
  | group {o : Token} {rest : List Token} : o.lexeme = .openBrace →
      Stepped maxBound maxDepth r [o] { r with braces := .group :: r.braces, rest }
  /-- A brace is closed. -/
  | close {x : Token} {rest : List Token} : x.lexeme = .closeBrace →
      Stepped maxBound maxDepth r [x] (r.closeBrace rest)
  /-- A move is read. -/
  | move {t : Token} {d : Direction} {rest : List Token} : t.lexeme = .move d →
      Stepped maxBound maxDepth r [t] { r with nodes := .move d t.line :: r.nodes, rest }
  /-- A token is passed over. -/
  | skip {t : Token} {rest : List Token} : t.lexeme ≠ .openBrace → t.lexeme ≠ .closeBrace →
      moveNode? t = none → atLoop (t :: rest) = false →
      Stepped maxBound maxDepth r [t] { r with rest }
  /-- A loop without braces is read. -/
  | run {n : Nat} {f : Token} {head inner rest : List Token} : IsOpening n (f :: head) →
      n ≤ maxBound → IsBody inner rest → (CutShort (inner ++ rest) → r.braces ≠ []) →
      Stepped maxBound maxDepth r (f :: head ++ inner)
        { r with nodes := .loop n (inner.filterMap moveNode?) false f.line :: r.nodes, rest }
  /-- A loop with braces is entered. -/
  | block {n : Nat} {f o : Token} {head rest : List Token} : IsOpening n (f :: head) →
      n ≤ maxBound → o.lexeme = .openBrace → r.openLoops + 1 ≤ maxDepth →
      Stepped maxBound maxDepth r (f :: head ++ [o])
        { braces := .loop n f.line r.nodes :: r.braces, nodes := [], rest }

theorem enterBody_of_openBrace {line : Nat} (ho : o.lexeme = .openBrace) :
    r.enterBody maxDepth n line (o :: ts) =
      if maxDepth < r.openLoops + 1 then .error (.tooMuchExpansion line)
      else .ok { braces := .loop n line r.nodes :: r.braces, nodes := [], rest := ts } := by
  obtain ⟨k, l, c⟩ := o
  cases ho
  rfl

theorem enterBody_of_ne {line : Nat} (ho : t.lexeme ≠ .openBrace) :
    r.enterBody maxDepth n line (t :: ts) =
      match takeBody line (!r.braces.isEmpty) (t :: ts) with
      | .error e => .error e
      | .ok (body, rest) => .ok { r with nodes := .loop n body false line :: r.nodes, rest } := by
  unfold enterBody
  split
  · rename_i heq
    cases heq
    exact absurd rfl ho
  · rfl

/-- **A loop's body is read exactly if it fits**: the brace may be opened, or there
is a body without braces. -/
theorem exists_enterBody_iff {line : Nat} :
    (∃ r', r.enterBody maxDepth n line later = .ok r') ↔
      ∃ t ts, later = t :: ts ∧
        (t.lexeme = .openBrace ∧ r.openLoops + 1 ≤ maxDepth ∨
          t.lexeme ≠ .openBrace ∧ t.lexeme ≠ .finish ∧
            LoopFree (Loop.run later) (behindRun later) ∧ (CutShort later → r.braces ≠ [])) := by
  cases later with
  | nil => simp [enterBody, takeBody]
  | cons t ts =>
    by_cases ho : t.lexeme = .openBrace
    · rw [enterBody_of_openBrace ho]
      constructor
      · rintro ⟨r', h⟩
        split at h
        · cases h
        · rename_i hdepth
          exact ⟨t, ts, rfl, Or.inl ⟨ho, Int.not_lt.mp hdepth⟩⟩
      · rintro ⟨u, us, heq, ⟨-, hdepth⟩ | ⟨hu, -⟩⟩
        · exact ⟨_, if_neg (Int.not_lt.mpr hdepth)⟩
        · cases heq
          exact absurd ho hu
    · rw [enterBody_of_ne ho]
      constructor
      · rintro ⟨r', h⟩
        split at h
        · cases h
        · rename_i hb
          obtain ⟨hfin, hfree, hcut, -, -⟩ := (takeBody_eq_ok _ _).mp hb
          refine ⟨t, ts, rfl, Or.inr ⟨ho, hfin, hfree, fun h => ?_⟩⟩
          simpa using hcut h
      · rintro ⟨u, us, heq, ⟨hu, -⟩ | ⟨-, hfin, hfree, hcut⟩⟩
        · cases heq
          exact absurd hu ho
        · cases heq
          have hb := (takeBody_eq_ok line (!r.braces.isEmpty)).mpr
            ⟨hfin, hfree, fun h => by simpa using hcut h, rfl, rfl⟩
          rw [hb]
          exact ⟨_, rfl⟩

/-- What reading a loop's body does. -/
theorem stepped_of_enterBody (ho : IsOpening n (f :: head)) (hn : n ≤ maxBound)
    (h : r.enterBody maxDepth n f.line later = .ok r') :
    ∃ taken, later = taken ++ r'.rest ∧ Stepped maxBound maxDepth r (f :: head ++ taken) r' := by
  obtain ⟨t, ts, rfl, hfits⟩ := exists_enterBody_iff.mp ⟨r', h⟩
  rcases hfits with ⟨hbrace, hdepth⟩ | ⟨hbrace, hfin, hfree, hcut⟩
  · rw [enterBody_of_openBrace hbrace, if_neg (Int.not_lt.mpr hdepth)] at h
    cases h
    exact ⟨[t], rfl, .block ho hn hbrace hdepth⟩
  · rw [enterBody_of_ne hbrace] at h
    split at h
    · cases h
    · rename_i nodes rest hb
      obtain ⟨-, -, -, rfl, rfl⟩ := (takeBody_eq_ok _ _).mp hb
      cases h
      obtain ⟨inner, heq, hinner⟩ := exists_isBody hbrace hfin hfree
      refine ⟨inner, heq, ?_⟩
      rw [heq] at hcut
      -- the `;` that goes with the run holds no move
      have hmoves := hinner.filterMap_eq
      rw [← heq] at hmoves
      rw [← hmoves]
      exact .run ho hn hinner hcut

/-- Whether a loop begins decides how a step goes. -/
theorem step_of_atLoop (h : atLoop (t :: later) = true) :
    r.step maxBound maxDepth t later = r.enterLoop maxBound maxDepth t.line later := by
  obtain ⟨ht, -⟩ := atLoop_cons.mp h
  simp [step, ht, h]

/-- **A step at which no loop begins never fails.** -/
theorem exists_stepped_of_not_atLoop (r : Reading) (maxBound maxDepth : Int)
    (h : atLoop (t :: later) = false) :
    ∃ r', r.step maxBound maxDepth t later = .ok r' ∧ r'.rest = later ∧
      Stepped maxBound maxDepth r [t] r' := by
  unfold step
  split
  · rename_i ht
    exact ⟨_, rfl, rfl, .group ht⟩
  · rename_i ht
    exact ⟨_, rfl, rest_closeBrace r later, .close ht⟩
  · rename_i d ht
    exact ⟨_, rfl, rfl, .move ht⟩
  · rename_i hopen hclose hmove
    rw [h, if_neg Bool.false_ne_true]
    exact ⟨_, rfl, rfl, .skip hopen hclose (moveNode?_of_ne hmove) h⟩

/-- **A step at which a loop begins succeeds exactly if the loop is spelled right, has
not too many rounds and has a body that fits.** -/
theorem exists_step_iff (h : atLoop (t :: later) = true) :
    (∃ r', r.step maxBound maxDepth t later = .ok r') ↔
      ∃ n head rest, later = head ++ rest ∧ IsOpening n (t :: head) ∧ n ≤ maxBound ∧
        ∃ r', r.enterBody maxDepth n t.line rest = .ok r' := by
  rw [step_of_atLoop h, enterLoop]
  obtain ⟨ht, -⟩ := atLoop_cons.mp h
  constructor
  · rintro ⟨r', hr⟩
    split at hr
    · cases hr
    · rename_i n rest hhead
      obtain ⟨head, rfl, hopening⟩ := (takeHeader_eq_some ht).mp hhead
      split at hr
      · cases hr
      · rename_i hn
        exact ⟨n, head, rest, rfl, hopening, Int.not_lt.mp hn, r', hr⟩
  · rintro ⟨n, head, rest, rfl, hopening, hn, r', hr⟩
    rw [(takeHeader_eq_some ht).mpr ⟨head, rfl, hopening⟩]
    refine ⟨r', ?_⟩
    dsimp only
    rw [if_neg (Int.not_lt.mpr hn), hr]

/-- **A step that succeeds** takes the first token and perhaps more, and does with them
one of the things that a step can do. -/
theorem stepped_of_step (h : r.step maxBound maxDepth t later = .ok r') :
    ∃ more, later = more ++ r'.rest ∧ Stepped maxBound maxDepth r (t :: more) r' := by
  cases hloop : atLoop (t :: later) with
  | false =>
    obtain ⟨r'', hr, hrest, hstep⟩ := exists_stepped_of_not_atLoop r maxBound maxDepth hloop
    rw [hr] at h
    cases h
    exact ⟨[], hrest.symm, hstep⟩
  | true =>
    obtain ⟨n, head, rest, rfl, hopening, hn, r'', hr⟩ := (exists_step_iff hloop).mp ⟨r', h⟩
    obtain ⟨ht, -⟩ := atLoop_cons.mp hloop
    rw [step_of_atLoop hloop, enterLoop, (takeHeader_eq_some ht).mpr ⟨head, rfl, hopening⟩] at h
    dsimp only at h
    rw [if_neg (Int.not_lt.mpr hn)] at h
    obtain ⟨taken, rfl, hstep⟩ := stepped_of_enterBody hopening hn h
    exact ⟨head ++ taken, (List.append_assoc ..).symm, hstep⟩

/-- Behind the first token that a step takes, no loop begins. -/
theorem Stepped.loopFree (h : Stepped maxBound maxDepth r (t :: taken) r') :
    LoopFree taken r'.rest := by
  generalize hall : t :: taken = all at h
  cases h with
  | group | close | move | skip =>
    cases hall
    trivial
  | run hopening _ hinner _ =>
    cases hall
    exact loopFree_append.mpr ⟨loopFree_of_ne_for fun _ => hopening.ne_for, hinner.loopFree⟩
  | block hopening _ ho _ =>
    cases hall
    exact loopFree_append.mpr ⟨loopFree_of_ne_for fun _ => hopening.ne_for,
      loopFree_of_ne_for (by simp [ho])⟩

/-- **A step keeps what has been read.** -/
theorem Stepped.pending (hp : Pending r.braces r.nodes before (taken ++ r'.rest))
    (h : Stepped maxBound maxDepth r taken r') :
    Pending r'.braces r'.nodes (before ++ taken) r'.rest := by
  cases h with
  | @group o rest ho =>
    have hreads : Reads [o] rest ([] : List Node).reverse :=
      .skip_one (moveNode?_of_ne fun d => by simp [ho]) (atLoop_eq_false (by simp [ho]))
    exact .group hp ho (hp.not_endsWithOpening ho) Balanced.nil hreads
  | @close x rest hx =>
    rw [rest_closeBrace] at hp ⊢
    exact hp.close hx
  | @move t d rest ht =>
    exact hp.extend [.move d t.line] (Balanced.of_no_braces (by simp [ht]))
      (.move ht .nil)
  | @skip t rest hopen hclose ht hloop =>
    exact hp.extend [] (Balanced.of_no_braces (by simp [hopen, hclose]))
      (.skip_one ht hloop)
  | @run n f head inner rest hopening _ hinner _ =>
    have hreads : Reads (f :: head ++ (inner ++ [])) rest
        [.loop n (inner.filterMap moveNode?) false f.line] := .run hopening hinner .nil
    rw [List.append_nil] at hreads
    exact hp.extend [.loop n (inner.filterMap moveNode?) false f.line]
      (hopening.balanced.append hinner.balanced) hreads
  | @block n f o head rest hopening _ ho _ =>
    have hp' : Pending r.braces r.nodes before (f :: head ++ o :: ([] ++ rest)) := by
      rwa [List.append_assoc] at hp
    exact .loop hp' hopening ho Balanced.nil .nil

/-! ### The whole reading -/

/-- A reading ends where there is no more token but the end. -/
theorem run_of_stop (h : ∀ t ∈ r.rest.head?, t.lexeme = .finish) :
    r.run maxBound maxDepth = .ok r := by
  rw [run]
  split
  · rfl
  · rename_i t later hrest
    rw [if_pos (h t (by rw [hrest]; rfl))]

theorem run_of_finish (hrest : r.rest = t :: later) (ht : t.lexeme = .finish) :
    r.run maxBound maxDepth = .ok r :=
  run_of_stop (by simp [hrest, ht])

theorem run_of_step (hrest : r.rest = t :: later) (ht : t.lexeme ≠ .finish)
    (hstep : r.step maxBound maxDepth t later = .ok r') :
    r.run maxBound maxDepth = r'.run maxBound maxDepth := by
  rw [run]
  split
  · rename_i heq
    cases hrest.symm.trans heq
  · rename_i heq
    obtain ⟨rfl, rfl⟩ := List.cons_eq_cons.mp (hrest.symm.trans heq)
    rw [if_neg ht]
    split
    · rename_i heq
      cases hstep.symm.trans heq
    · rename_i heq
      cases hstep.symm.trans heq
      rfl

/-- A reading ends at a step that fails. -/
theorem run_of_step_eq_error {f : Fault} (hrest : r.rest = t :: later) (ht : t.lexeme ≠ .finish)
    (hstep : r.step maxBound maxDepth t later = .error f) :
    r.run maxBound maxDepth = .error f := by
  rw [run]
  split
  · rename_i heq
    cases hrest.symm.trans heq
  · rename_i heq
    obtain ⟨rfl, rfl⟩ := List.cons_eq_cons.mp (hrest.symm.trans heq)
    rw [if_neg ht]
    split
    · rename_i heq
      cases hstep.symm.trans heq
      rfl
    · rename_i heq
      cases hstep.symm.trans heq

/-- **What holds of a whole reading**: it holds where a reading stops and where a step
fails, and a step that succeeds hands it on to the reading before it. -/
theorem run_induction {P : Reading → Except Fault Reading → Prop}
    (stop : ∀ r, (∀ t ∈ r.rest.head?, t.lexeme = .finish) → P r (.ok r))
    (fail : ∀ r t later f, r.rest = t :: later → r.step maxBound maxDepth t later = .error f →
      P r (.error f))
    (next : ∀ r r' t more, r.rest = t :: (more ++ r'.rest) →
      r.step maxBound maxDepth t (more ++ r'.rest) = .ok r' →
      Stepped maxBound maxDepth r (t :: more) r' →
      P r' (r'.run maxBound maxDepth) → P r (r'.run maxBound maxDepth))
    (r : Reading) : P r (r.run maxBound maxDepth) := by
  induction hlen : r.rest.length using Nat.strong_induction_on generalizing r with
  | _ _ ih =>
    rw [run]
    split
    · rename_i hrest
      exact stop r (by simp [hrest])
    · rename_i t later hrest
      split
      · rename_i hfin
        exact stop r (by simp [hrest, hfin])
      · split
        · rename_i f hs
          exact fail r t later f hrest hs
        · rename_i r' hs
          -- the rest is shorter, and so the reading that is left is settled
          have hlt := length_rest_step hs
          obtain ⟨more, rfl, hstep⟩ := stepped_of_step hs
          exact next r r' t more hrest hs hstep
            (ih r'.rest.length (by rw [← hlen, hrest, List.length_cons]; omega) r' rfl)

/-- **A reading that comes to its end** has read the tokens up to there. -/
theorem pending_of_run (hp : Pending r.braces r.nodes before r.rest)
    (h : r.run maxBound maxDepth = .ok r') :
    ∃ taken, r.rest = taken ++ r'.rest ∧ Pending r'.braces r'.nodes (before ++ taken) r'.rest ∧
      ∀ t ∈ r'.rest.head?, t.lexeme = .finish := by
  refine run_induction (P := fun r result => ∀ before, Pending r.braces r.nodes before r.rest →
    ∀ r', result = .ok r' → ∃ taken, r.rest = taken ++ r'.rest ∧
      Pending r'.braces r'.nodes (before ++ taken) r'.rest ∧
      ∀ t ∈ r'.rest.head?, t.lexeme = .finish) ?_ ?_ ?_ r before hp r' h
  · intro r hfin before hp r' h
    cases h
    exact ⟨[], rfl, by rwa [List.append_nil], hfin⟩
  · intro r t later f _ _ before _ r' h
    cases h
  · intro r r₁ t more hrest _ hstep ih before hp r' h
    rw [hrest] at hp
    obtain ⟨taken, heq, hp', hfin⟩ := ih _ (hstep.pending hp) r' h
    refine ⟨t :: more ++ taken, ?_, ?_, hfin⟩
    · rw [hrest, heq, List.append_assoc]
      rfl
    · rwa [← List.append_assoc]

/-- Nothing has been read before the first token. -/
theorem pending_start (ts : List Token) : Pending [] [] [] ts :=
  .top not_openIn_nil .nil

end Reading

end ScriptedMaze.Script
