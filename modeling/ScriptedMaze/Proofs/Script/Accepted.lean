import ScriptedMaze.Proofs.Script.Ending
import ScriptedMaze.Proofs.Script.Steps

/-!
# Which scripts have a tree

A reading goes through the tokens once and stops at the first loop that is not
right. Whether there is a tree can be said without it, loop by loop: every loop
that begins anywhere in the script has to be allowed where it stands (`Allowed`).
It has to be spelled as loops are, with not too many rounds. If braces follow, they
have to have a partner, and not too many loops may be open with them; if none
follow, no loop may begin in the run, and the run may end at a closing brace on its
line only if some brace is open there. Nothing else is looked at, and so nothing
else makes a script fail (`Tree.exists_ofTokens_tokens_iff`).

The step at a loop tells all of this but for the partner of its brace
(`Reading.exists_step_iff_fits`), and a loop that is left without one shows at the
end (`closes_iff`).
-/

namespace ScriptedMaze

namespace Script

open Loop

variable {t o e : Token} {a b c ts rest before behind later s : List Token} {n : Nat}
  {maxBound maxDepth : Int}

/-! ### Loops that are allowed -/

/-- **A loop's body fits** behind the tokens `ahead`, the last of which are the
opening of the loop. -/
inductive BodyFits (maxDepth : Int) (ahead : List Token) : List Token → Prop
  /-- With its brace not too many loops are open. -/
  | block {o : Token} {c : List Token} : o.lexeme = .openBrace →
      loopsOpenIn (ahead ++ [o]) ≤ maxDepth → BodyFits maxDepth ahead (o :: c)
  /-- No loop begins in its run, and if that is cut short, some brace is open there. -/
  | run {t : Token} {ts : List Token} : t.lexeme ≠ .openBrace → t.lexeme ≠ .finish →
      LoopFree (run (t :: ts)) (behindRun (t :: ts)) →
      (CutShort (t :: ts) → ∃ a, OpenIn (ahead ++ run (t :: ts)) a) →
      BodyFits maxDepth ahead (t :: ts)

/-- The tokens `s`, behind the tokens `before`, begin with a loop that is spelled
right, has not too many rounds, and has a body that fits. -/
def Fits (maxBound maxDepth : Int) (before s : List Token) : Prop :=
  ∃ n opening later, s = opening ++ later ∧ IsOpening n opening ∧ n ≤ maxBound ∧
    BodyFits maxDepth (before ++ opening) later

/-- The brace of the loop with which the tokens begin has a partner, if the loop has
a brace. -/
def Closes (s : List Token) : Prop :=
  ∀ n opening o c, s = opening ++ o :: c → IsOpening n opening → o.lexeme = .openBrace → Closed c

/-- **The loop at the front of the tokens `s` is allowed** behind the tokens `before`. -/
structure Allowed (maxBound maxDepth : Int) (before s : List Token) : Prop where
  fits : Fits maxBound maxDepth before s
  closes : Closes s

/-! ### The loops that a reading comes upon -/

namespace Reading

variable {r r' : Reading}

/-- What the tokens say of a loop's body is what the stack says. -/
theorem bodyFits_iff {opening : List Token} {line : Nat}
    (hp : Pending r.braces r.nodes before (opening ++ later)) (ho : IsOpening n opening) :
    BodyFits maxDepth (before ++ opening) later ↔
      ∃ r', r.enterBody maxDepth n line later = .ok r' := by
  have hloops : ∀ o c, later = o :: c → o.lexeme = .openBrace →
      loopsOpenIn (before ++ opening ++ [o]) = r.openLoops + 1 := by
    rintro o c rfl hopen
    -- the stack is that of the step that would open the brace
    obtain ⟨f, p, head, rfl, -⟩ := ho.exists_cons
    have hblock : Pending (.loop n f.line r.nodes :: r.braces) []
        (before ++ (f :: p :: head ++ [o])) c := .loop hp ho hopen Balanced.nil .nil
    rw [List.append_assoc]
    exact hblock.loopsOpenIn_eq
  have hbraces : (∃ a, OpenIn (before ++ opening ++ Loop.run later) a) ↔ r.braces ≠ [] := by
    -- neither the opening nor the run opens or closes a brace
    have hrun : Balanced (Loop.run later) := Balanced.of_no_braces fun _ => ne_brace_of_mem_run
    simp only [openIn_append hrun, openIn_append ho.balanced, hp.exists_openIn_iff]
  rw [exists_enterBody_iff]
  constructor
  · intro h
    cases h with
    | @block o c hopen hdepth =>
      rw [hloops o c rfl hopen] at hdepth
      exact ⟨o, c, rfl, Or.inl ⟨hopen, by exact_mod_cast hdepth⟩⟩
    | @run t ts hopen hfin hfree hcut =>
      exact ⟨t, ts, rfl, Or.inr ⟨hopen, hfin, hfree, fun h => hbraces.mp (hcut h)⟩⟩
  · rintro ⟨t, ts, rfl, ⟨hopen, hdepth⟩ | ⟨hopen, hfin, hfree, hcut⟩⟩
    · refine .block hopen ?_
      rw [hloops t ts rfl hopen]
      exact_mod_cast hdepth
    · exact .run hopen hfin hfree fun h => hbraces.mpr (hcut h)

/-- **The step at a loop succeeds exactly if the loop fits.** -/
theorem exists_step_iff_fits (hp : Pending r.braces r.nodes before (t :: later))
    (h : atLoop (t :: later) = true) :
    (∃ r', r.step maxBound maxDepth t later = .ok r') ↔
      Fits maxBound maxDepth before (t :: later) := by
  rw [exists_step_iff h]
  constructor
  · rintro ⟨n, head, rest, rfl, ho, hn, hbody⟩
    exact ⟨n, t :: head, rest, rfl, ho, hn, (bodyFits_iff hp ho).mpr hbody⟩
  · rintro ⟨n, opening, rest, heq, ho, hn, hbody⟩
    obtain ⟨f, p, head, rfl, -⟩ := ho.exists_cons
    obtain ⟨rfl, rfl⟩ := List.cons_eq_cons.mp heq
    exact ⟨n, p :: head, rest, rfl, ho, hn, (bodyFits_iff hp ho).mp hbody⟩

/-- **A reading comes to its end exactly if every loop to come fits.** -/
theorem exists_run_iff (maxBound maxDepth : Int)
    (hp : Pending r.braces r.nodes before r.rest) (hend : Ended r.rest) :
    (∃ r', r.run maxBound maxDepth = .ok r') ↔
      ∀ a s, r.rest = a ++ s → atLoop s = true → Fits maxBound maxDepth (before ++ a) s := by
  refine run_induction (P := fun r result => ∀ before, Pending r.braces r.nodes before r.rest →
    Ended r.rest → ((∃ r', result = .ok r') ↔ ∀ a s, r.rest = a ++ s → atLoop s = true →
      Fits maxBound maxDepth (before ++ a) s)) ?_ ?_ ?_ r before hp hend
  · intro r hfin before _ hend
    -- nothing is left but the end of the script
    have hfree : LoopFree r.rest [] := by
      rcases hend.eq_nil_or List.suffix_rfl hfin with hnil | ⟨e, he, hlex⟩
      · rw [hnil]
        trivial
      · rw [he]
        exact ⟨atLoop_eq_false (by simp [hlex]), trivial⟩
    exact iff_of_true ⟨r, rfl⟩ fun a s heq hs => absurd hs (hfree.not_atLoop heq)
  · intro r t later f hrest hs before hp _
    rw [hrest] at hp ⊢
    -- the step that failed was at a loop, and that loop does not fit
    refine iff_of_false (by rintro ⟨r', h⟩; cases h) fun hall => ?_
    cases hloop : atLoop (t :: later) with
    | false =>
      obtain ⟨r', hr', -⟩ := exists_stepped_of_not_atLoop r maxBound maxDepth hloop
      cases hs.symm.trans hr'
    | true =>
      have hfits := hall [] _ rfl hloop
      rw [List.append_nil] at hfits
      obtain ⟨r', hr'⟩ := (exists_step_iff_fits hp hloop).mpr hfits
      cases hs.symm.trans hr'
  · intro r r' t more hrest hs hstep ih before hp hend
    rw [hrest] at hp hend ⊢
    have hsuf : r'.rest <:+ t :: (more ++ r'.rest) := ⟨t :: more, rfl⟩
    rw [hstep.loopFree.forall_iff, ih _ (hstep.pending hp) (hend.suffix hsuf)]
    have hfront : atLoop (t :: (more ++ r'.rest)) = true →
        Fits maxBound maxDepth (before ++ []) (t :: (more ++ r'.rest)) := by
      intro hloop
      rw [List.append_nil]
      exact (exists_step_iff_fits hp hloop).mp ⟨r', hs⟩
    simp only [List.append_assoc]
    exact (and_iff_right hfront).symm

end Reading

/-! ### The loops that are left open -/

/-- **No loop is open at the end of the tokens exactly if every loop's brace has a
partner.** -/
theorem closes_iff :
    loopsOpenIn ts = 0 ↔ ∀ before s, ts = before ++ s → Closes s := by
  rw [loopsOpenIn_eq_zero]
  constructor
  · rintro hnone before s rfl n opening o c rfl ho hopen
    by_contra hclosed
    refine hnone (before ++ opening) ⟨o, c, by simp, hopen, hclosed⟩ ?_
    exact ⟨n, opening, ho, List.suffix_append before opening⟩
  · rintro hall a ⟨o, c, rfl, hopen, hclosed⟩ ⟨n, opening, ho, before, rfl⟩
    exact hclosed (hall before (opening ++ o :: c) (by simp) n opening o c rfl ho hopen)

/-- A reading leads to a tree if no loop is left open. -/
theorem Reading.exists_result_iff {r : Reading} (hp : Pending r.braces r.nodes before rest) :
    (∃ nodes, r.result = .ok nodes) ↔ loopsOpenIn before = 0 := by
  rw [hp.loopsOpenIn_eq, List.length_eq_zero_iff, Reading.result]
  cases hb : r.braces.findSome? OpenBrace.loopLine? with
  | none =>
    refine iff_of_true ⟨_, rfl⟩ ?_
    rw [List.findSome?_eq_none_iff] at hb
    exact List.filterMap_eq_nil_iff.mpr hb
  | some line =>
    refine iff_of_false (by rintro ⟨nodes, h⟩; cases h) fun hnil => ?_
    rw [List.filterMap_eq_nil_iff, ← List.findSome?_eq_none_iff] at hnil
    rw [hnil] at hb
    cases hb

/-! ### What can be wrong with a loop -/

/-- The kinds of fault that a reading can come upon. -/
def loopFaults : List FaultKind :=
  [.unsupportedLoopShape, .loopBoundExceeded, .loopExpansionOverflow]

theorem Loop.kind_of_takeLine {line loopLine : Nat} {inBlock : Bool} {f : Fault}
    (h : takeLine line loopLine inBlock ts = .error f) : f.kind ∈ loopFaults := by
  induction ts with
  | nil => cases h
  | cons t ts ih =>
    cases hin : inRun line t with
    | false =>
      rw [takeLine_of_not_inRun hin] at h
      split at h <;> cases h
      simp [loopFaults, Fault.kind]
    | true =>
      rw [takeLine_of_inRun hin] at h
      split at h
      · cases h
        simp [loopFaults, Fault.kind]
      · cases hrec : takeLine line loopLine inBlock ts with
        | error g =>
          rw [hrec] at h
          cases h
          exact ih hrec
        | ok p =>
          rw [hrec] at h
          cases h

theorem Loop.kind_of_takeBody {loopLine : Nat} {inBlock : Bool} {f : Fault}
    (h : takeBody loopLine inBlock ts = .error f) : f.kind ∈ loopFaults := by
  unfold takeBody at h
  split at h
  · cases h
    simp [loopFaults, Fault.kind]
  · split at h
    · cases h
      simp [loopFaults, Fault.kind]
    · exact kind_of_takeLine h

namespace Reading

variable {r : Reading} {f : Fault}

theorem kind_of_enterBody {line : Nat} (h : r.enterBody maxDepth n line later = .error f) :
    f.kind ∈ loopFaults := by
  unfold enterBody at h
  split at h
  · split at h <;> cases h
    simp [loopFaults, Fault.kind]
  · split at h
    · rename_i hbody
      cases h
      exact kind_of_takeBody hbody
    · cases h

theorem kind_of_step (h : r.step maxBound maxDepth t later = .error f) :
    f.kind ∈ loopFaults := by
  cases hloop : atLoop (t :: later) with
  | false =>
    obtain ⟨r', hr', -⟩ := exists_stepped_of_not_atLoop r maxBound maxDepth hloop
    cases h.symm.trans hr'
  | true =>
    rw [step_of_atLoop hloop, enterLoop] at h
    split at h
    · cases h
      simp [loopFaults, Fault.kind]
    · split at h
      · cases h
        simp [loopFaults, Fault.kind]
      · exact kind_of_enterBody h

theorem kind_of_run (h : r.run maxBound maxDepth = .error f) : f.kind ∈ loopFaults := by
  refine run_induction (P := fun _ result => ∀ f, result = .error f → f.kind ∈ loopFaults)
    ?_ ?_ ?_ r f h
  · intro r _ f h
    cases h
  · intro r t later g _ hs f h
    cases h
    exact kind_of_step hs
  · intro r r' t more _ _ _ ih
    exact ih

end Reading

/-! ### Scripts with a tree -/

namespace Tree

/-- **There is a tree exactly if every loop is allowed where it begins.** -/
theorem exists_ofTokens_iff (maxBound maxDepth : Int) (hend : Ended ts) :
    (∃ nodes, ofTokens maxBound maxDepth ts = .ok nodes) ↔
      ∀ before s, ts = before ++ s → atLoop s = true → Allowed maxBound maxDepth before s := by
  have hrun := Reading.exists_run_iff (r := { rest := ts }) maxBound maxDepth
    (Reading.pending_start ts) hend
  rw [ofTokens]
  cases hr : Reading.run maxBound maxDepth { rest := ts } with
  | error e =>
    refine iff_of_false (by rintro ⟨nodes, h⟩; cases h) fun hall => ?_
    obtain ⟨r', hr'⟩ := hrun.mpr fun a s heq hs => (hall a s heq hs).fits
    cases hr.symm.trans hr'
  | ok r =>
    obtain ⟨taken, heq, hp, hfin⟩ := Reading.pending_of_run (Reading.pending_start ts) hr
    -- what is left holds no brace
    have hrest : Balanced r.rest := by
      refine Balanced.of_no_braces fun t ht => ?_
      rcases hend.eq_nil_or ⟨taken, heq.symm⟩ hfin with hnil | ⟨e, he, hlex⟩
      · rw [hnil] at ht
        cases ht
      · rw [he, List.mem_singleton] at ht
        rw [ht, hlex]
        exact ⟨by decide, by decide⟩
    have hopen : loopsOpenIn taken = loopsOpenIn ts := by
      change ts = taken ++ r.rest at heq
      rw [heq, loopsOpenIn_append hrest]
    refine (Reading.exists_result_iff hp).trans ?_
    rw [List.nil_append, hopen, closes_iff]
    constructor
    · intro hcloses before s heq hs
      exact ⟨hrun.mp ⟨r, hr⟩ before s heq hs, hcloses before s heq⟩
    · intro hall before s heq
      rintro n opening o c rfl ho hbrace
      exact (hall before _ heq (ho.atLoop_append _)).closes n opening o c rfl ho hbrace

/-- A script without a tree has a loop that is at fault. -/
theorem kind_of_ofTokens {f : Fault} (h : ofTokens maxBound maxDepth ts = .error f) :
    f.kind ∈ loopFaults := by
  rw [ofTokens] at h
  split at h
  · rename_i hr
    cases h
    exact Reading.kind_of_run hr
  · unfold Reading.result at h
    split at h <;> cases h
    simp [loopFaults, Fault.kind]

/-- **The scripts with a tree are those in which every loop is allowed where it
begins**, and all others are rejected for a loop. It is taken for granted that there is
room enough for the loops that are open; what happens where there is not is told by
`Script.commands?`. -/
theorem exists_ofTokens_tokens_iff (maxBound maxDepth : Int) (source : String) :
    ((∃ nodes, ofTokens maxBound maxDepth (tokens source) = .ok nodes) ↔
        ∀ before s, tokens source = before ++ s → atLoop s = true →
          Allowed maxBound maxDepth before s) ∧
      ((∃ f, ofTokens maxBound maxDepth (tokens source) = .error f ∧ f.kind ∈ loopFaults) ↔
        ∃ before s, tokens source = before ++ s ∧ atLoop s = true ∧
          ¬Allowed maxBound maxDepth before s) := by
  have hiff := exists_ofTokens_iff maxBound maxDepth (ended_tokens source)
  refine ⟨hiff, ?_⟩
  cases h : ofTokens maxBound maxDepth (tokens source) with
  | ok nodes =>
    refine iff_of_false (by rintro ⟨f, hf, -⟩; cases hf) ?_
    rintro ⟨before, s, heq, hs, hnot⟩
    exact hnot (hiff.mp ⟨nodes, h⟩ before s heq hs)
  | error f =>
    refine iff_of_true ⟨f, rfl, kind_of_ofTokens h⟩ ?_
    by_contra hnone
    obtain ⟨nodes, hnodes⟩ := hiff.mpr fun before s heq hs =>
      by_contra fun hnot => hnone ⟨before, s, heq, hs, hnot⟩
    cases h.symm.trans hnodes

/-- A loop without braces, and a closing brace on the next line. -/
def braceOnNextLine : String := "for (let i = 0; i < 3; i++) moveUp()\n\x7d"

/-- A run that ends at a closing brace is not always cut short: on the next line the
brace closes nothing, and the loop is read all the same. -/
theorem ofTokens_braceOnNextLine :
    ∃ opening later x rest, tokens braceOnNextLine = opening ++ later ∧ IsOpening 3 opening ∧
      behindRun later = x :: rest ∧ x.lexeme = .closeBrace ∧
      (∀ a, ¬OpenIn (opening ++ run later) a) ∧
      ∃ nodes, ofTokens 20 20 (tokens braceOnNextLine) = .ok nodes := by
  let opening : List Token :=
    [⟨.word "for", 1, 1⟩, ⟨.openParen, 1, 5⟩, ⟨.word "let", 1, 6⟩, ⟨.word "i", 1, 10⟩,
      ⟨.assign, 1, 12⟩, ⟨.number "0", 1, 14⟩, ⟨.semicolon, 1, 15⟩, ⟨.word "i", 1, 17⟩,
      ⟨.less, 1, 19⟩, ⟨.number "3", 1, 21⟩, ⟨.semicolon, 1, 22⟩, ⟨.word "i", 1, 24⟩,
      ⟨.increment, 1, 25⟩, ⟨.closeParen, 1, 27⟩]
  let later : List Token := [⟨.move .up, 1, 29⟩, ⟨.closeBrace, 2, 1⟩, ⟨.finish, 2, 2⟩]
  have htokens : tokens braceOnNextLine = opening ++ later := by decide +kernel
  have hopening : IsOpening 3 opening := ⟨"3", rfl, by decide, by decide⟩
  have hbalanced : Balanced (opening ++ run later) := by decide
  have hread : (ofTokens 20 20 (tokens braceOnNextLine)).isOk = true := by decide +kernel
  refine ⟨opening, later, _, _, htokens, hopening, rfl, rfl, fun a h => ?_, ?_⟩
  · exact not_openIn_nil a ((openIn_append hbalanced).mp h)
  · cases h : ofTokens 20 20 (tokens braceOnNextLine) with
    | error f =>
      rw [h] at hread
      cases hread
    | ok nodes => exact ⟨nodes, rfl⟩

end Tree

end Script

end ScriptedMaze
