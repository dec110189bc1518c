import Mathlib.Algebra.Order.Group.Int
import ScriptedMaze.Script.Commands

/-!
# What a tree is unrolled to, and what that costs

A tree stands for a list of moves (`unrolled`): a loop of `n` rounds stands for `n`
copies of what its body stands for. Unrolling it costs one for every braced loop
that is come upon, in every copy of the loops around it: a loop of `n` rounds costs
`n` times what its body costs, and one more if it has braces (`cost`).

The unrolling itself knows neither. It passes a count through the whole tree and
stops in the middle, at the first braced loop for which the count is too high. Still
it succeeds exactly on the trees whose cost can be paid, and then gives what they
stand for (`Tree.unroll_eq`). What carries the induction is that two stretches can
be paid, one after the other, exactly if the first can be paid and the second can be
paid from what is left (`affordable_add`). A cost of nothing can always be paid, even
where the count is too high from the start.
-/

namespace ScriptedMaze.Script

/-! ### The moves and the cost of a tree -/

mutual

/-- The moves that a node stands for. -/
def Node.unrolled : Node → List Direction
  | .move d _ => [d]
  | .loop n body _ _ => (List.replicate n (unrolled body)).flatten

/-- **The moves that a tree stands for**: each loop is as many copies of its body as
it has rounds. -/
def unrolled : List Node → List Direction
  | [] => []
  | node :: nodes => node.unrolled ++ unrolled nodes

end

mutual

/-- What unrolling a node costs. -/
def Node.cost : Node → Nat
  | .move _ _ => 0
  | .loop n body braced _ => n * cost body + if braced then 1 else 0

/-- **What unrolling a tree costs**: one for every braced loop in every copy of the
loops around it. -/
def cost : List Node → Nat
  | [] => 0
  | node :: nodes => node.cost + cost nodes

end

theorem unrolled_append (a b : List Node) : unrolled (a ++ b) = unrolled a ++ unrolled b := by
  induction a with
  | nil => rfl
  | cons node a ih => rw [List.cons_append, unrolled, unrolled, ih, List.append_assoc]

theorem cost_append (a b : List Node) : cost (a ++ b) = cost a + cost b := by
  induction a with
  | nil => rw [List.nil_append, cost, Nat.zero_add]
  | cons node a ih => rw [List.cons_append, cost, cost, ih, Nat.add_assoc]

/-! ### Paying -/

variable {most : Int} {used c c' : Nat} {ds ds' : List Direction}

/-- **A cost can be paid** when `used` loops have been counted: there is nothing to
pay, or the count stays within bounds. -/
def Affordable (most : Int) (used c : Nat) : Prop :=
  c = 0 ∨ (used + c : Int) ≤ most

/-- Two costs can be paid one after the other if the second can be paid from what the
first leaves. -/
theorem affordable_add :
    Affordable most used (c + c') ↔ Affordable most used c ∧ Affordable most (used + c) c' := by
  unfold Affordable
  omega

theorem affordable_zero_iff : Affordable most 0 c ↔ (c : Int) ≤ max most 0 := by
  unfold Affordable
  omega

/-- **What comes of an unrolling** that is to give `ds` at the cost `c`: if the cost
can be paid, it gives them and counts the cost, and if not, it stops at some loop. -/
structure Unrolls (most : Int) (used c : Nat) (ds : List Direction)
    (result : Except Fault (List Direction × Nat)) : Prop where
  paid : Affordable most used c → result = .ok (ds, used + c)
  stopped : ¬Affordable most used c → ∃ line, result = .error (.tooMuchExpansion line)

/-- One unrolling after another, as `rounds` and `unrollAll` put them together. -/
def followedBy (result : Except Fault (List Direction × Nat))
    (next : Nat → Except Fault (List Direction × Nat)) : Except Fault (List Direction × Nat) :=
  match result with
  | .error f => .error f
  | .ok (ds, used) =>
    match next used with
    | .error f => .error f
    | .ok (ds', used) => .ok (ds ++ ds', used)

namespace Unrolls

theorem nothing (most : Int) (used : Nat) : Unrolls most used 0 [] (.ok ([], used)) where
  paid _ := rfl
  stopped h := absurd (Or.inl rfl) h

theorem followedBy {result : Except Fault (List Direction × Nat)}
    {next : Nat → Except Fault (List Direction × Nat)}
    (h : Unrolls most used c ds result) (h' : Unrolls most (used + c) c' ds' (next (used + c))) :
    Unrolls most used (c + c') (ds ++ ds') (followedBy result next) where
  paid hpay := by
    obtain ⟨hc, hc'⟩ := affordable_add.mp hpay
    rw [h.paid hc, Script.followedBy, h'.paid hc', Nat.add_assoc]
  stopped hpay := by
    by_cases hc : Affordable most used c
    · -- the first is paid, and so the second stops
      have hc' : ¬Affordable most (used + c) c' := fun hc' => hpay (affordable_add.mpr ⟨hc, hc'⟩)
      obtain ⟨line, hline⟩ := h'.stopped hc'
      refine ⟨line, ?_⟩
      rw [h.paid hc, Script.followedBy, hline]
    · obtain ⟨line, hline⟩ := h.stopped hc
      exact ⟨line, by rw [hline, Script.followedBy]⟩

end Unrolls

/-! ### Unrolling -/

/-- Every round costs the same and gives the same moves. -/
theorem unrolls_rounds {once : Nat → Except Fault (List Direction × Nat)}
    (h : ∀ used, Unrolls most used c ds (once used)) (n used : Nat) :
    Unrolls most used (n * c) (List.replicate n ds).flatten (rounds once n used) := by
  induction n generalizing used with
  | zero =>
    rw [Nat.zero_mul]
    exact .nothing most used
  | succ n ih =>
    rw [Nat.succ_mul, Nat.add_comm, List.replicate_succ, List.flatten_cons]
    exact (h used).followedBy (ih (used + c))

mutual

/-- A node is unrolled to its moves, at its cost. -/
theorem Node.unrolls (most : Int) :
    (node : Node) → ∀ used, Unrolls most used node.cost node.unrolled (node.unroll most used)
  | .move d line, used => ⟨fun _ => rfl, fun h => absurd (Or.inl rfl) h⟩
  | .loop n body braced line, used => by
    have hbody := fun used => unrolls_rounds (unrolls_unrollAll most body) n used
    rw [Node.unroll, Node.unrolled, Node.cost]
    cases braced with
    | false => simpa using hbody used
    | true =>
      -- the loop itself is paid first
      have hone : Affordable most used 1 ↔ ¬most < used + 1 := by
        unfold Affordable
        omega
      have hloop : Affordable most used (1 + n * cost body) ↔
          ¬most < used + 1 ∧ Affordable most (used + 1) (n * cost body) := by
        rw [affordable_add, hone]
      simp only [true_and, if_true]
      rw [Nat.add_comm (n * cost body) 1]
      constructor
      · intro hpay
        obtain ⟨hfirst, hrest⟩ := hloop.mp hpay
        rw [if_neg hfirst, (hbody (used + 1)).paid hrest, Nat.add_assoc]
      · intro hpay
        by_cases hfirst : most < used + 1
        · exact ⟨line, if_pos hfirst⟩
        · rw [if_neg hfirst]
          exact (hbody (used + 1)).stopped fun hrest => hpay (hloop.mpr ⟨hfirst, hrest⟩)

/-- Nodes in order are unrolled to their moves, at their cost. -/
theorem unrolls_unrollAll (most : Int) :
    (nodes : List Node) → ∀ used,
      Unrolls most used (cost nodes) (unrolled nodes) (unrollAll most nodes used)
  | [], used => .nothing most used
  | node :: nodes, used =>
    (node.unrolls most used).followedBy (unrolls_unrollAll most nodes (used + node.cost))

end

namespace Tree

variable {nodes : List Node}

/-- **A tree whose cost can be paid is unrolled to its moves.** -/
theorem unroll_eq_ok (h : (cost nodes : Int) ≤ max most 0) :
    unroll most nodes = .ok (unrolled nodes) := by
  rw [unroll, (unrolls_unrollAll most nodes 0).paid (affordable_zero_iff.mpr h)]
  rfl

/-- **The unrolling of a tree that costs too much stops at a loop.** -/
theorem unroll_eq_error (h : max most 0 < (cost nodes : Int)) :
    ∃ line, unroll most nodes = .error (.tooMuchExpansion line) := by
  have hpay : ¬Affordable most 0 (cost nodes) := fun hpay =>
    absurd (affordable_zero_iff.mp hpay) (Int.not_le.mpr h)
  obtain ⟨line, hline⟩ := (unrolls_unrollAll most nodes 0).stopped hpay
  exact ⟨line, by rw [unroll, hline]; rfl⟩

end Tree

/-! ### The moves of a source -/

section

variable {limits : Limits} {source : String} {nodes : List Node}

/-- What the stages before the unrolling have let pass is unrolled, and the moves are
counted last. -/
theorem commands_of_tree (hblank : Text.blank source = false)
    (hallowed : checkAllowed source = .ok ()) (htree : tree limits source = .ok nodes) :
    commands limits source =
      (Tree.unroll limits.expansions nodes).bind fun ds =>
        if limits.moves < ds.length then .error (.tooManyMoves ds.length limits.moves)
        else .ok ds := by
  unfold commands
  rw [hblank, hallowed, htree]
  simp only [Bool.false_eq_true, if_false]
  rfl

/-- Moves that can be paid for are given if there are not too many of them. -/
theorem commands_of_cost_le (hblank : Text.blank source = false)
    (hallowed : checkAllowed source = .ok ()) (htree : tree limits source = .ok nodes)
    (hcost : (cost nodes : Int) ≤ max limits.expansions 0) :
    commands limits source =
      if limits.moves < (unrolled nodes).length then
        .error (.tooManyMoves (unrolled nodes).length limits.moves)
      else .ok (unrolled nodes) := by
  rw [commands_of_tree hblank hallowed htree, Tree.unroll_eq_ok hcost]
  rfl

/-- Where the moves cost too much, they are not counted. -/
theorem commands_of_lt_cost (hblank : Text.blank source = false)
    (hallowed : checkAllowed source = .ok ()) (htree : tree limits source = .ok nodes)
    (hcost : max limits.expansions 0 < (cost nodes : Int)) :
    ∃ line, commands limits source = .error (.tooMuchExpansion line) := by
  obtain ⟨line, hline⟩ := Tree.unroll_eq_error hcost
  exact ⟨line, by rw [commands_of_tree hblank hallowed htree, hline]; rfl⟩

/-- **What becomes of a source**: a stage before the unrolling gives it up, or its moves cost
too much, or they are counted. -/
theorem commands_cases (limits : Limits) (source : String) :
    commands limits source = .error .emptyProgram ∨
      (∃ f, checkAllowed source = .error f ∧ commands limits source = .error f) ∨
      (∃ f, tree limits source = .error f ∧ commands limits source = .error f) ∨
      (∃ line, commands limits source = .error (.tooMuchExpansion line)) ∨
      checkAllowed source = .ok () ∧ ∃ nodes, tree limits source = .ok nodes ∧
        (cost nodes : Int) ≤ max limits.expansions 0 ∧
        commands limits source =
          if limits.moves < (unrolled nodes).length then
            .error (.tooManyMoves (unrolled nodes).length limits.moves)
          else .ok (unrolled nodes) := by
  cases hblank : Text.blank source with
  | true => exact .inl (by unfold commands; rw [hblank]; rfl)
  | false =>
    refine .inr ?_
    cases hallowed : checkAllowed source with
    | error f => exact .inl ⟨f, rfl, by unfold commands; rw [hblank, hallowed]; rfl⟩
    | ok u =>
      refine .inr ?_
      cases htree : tree limits source with
      | error f => exact .inl ⟨f, rfl, by unfold commands; rw [hblank, hallowed, htree]; rfl⟩
      | ok nodes =>
        refine .inr ?_
        by_cases hcost : (cost nodes : Int) ≤ max limits.expansions 0
        · exact .inr ⟨rfl, nodes, rfl, hcost, commands_of_cost_le hblank hallowed htree hcost⟩
        · exact .inl (commands_of_lt_cost hblank hallowed htree (Int.not_le.mp hcost))

end

/-- **A tree is unrolled to its moves exactly if its cost can be paid**, and a source is
turned into the moves of its tree exactly if, besides, there are not too many of them.
The cost is looked at first. However deep a tree is, there is taken to be room enough to
read and unroll it; what becomes of a source for which there is not is told by
`Script.commands?`. -/
theorem commands_eq_unrolled :
    (∀ (most : Int) (nodes : List Node),
      ((cost nodes : Int) ≤ max most 0 → Tree.unroll most nodes = .ok (unrolled nodes)) ∧
        (max most 0 < (cost nodes : Int) →
          ∃ line, Tree.unroll most nodes = .error (.tooMuchExpansion line))) ∧
      ∀ (limits : Limits) (source : String) (nodes : List Node), Text.blank source = false →
        checkAllowed source = .ok () → tree limits source = .ok nodes →
        (∀ ds, commands limits source = .ok ds ↔
          ds = unrolled nodes ∧ (cost nodes : Int) ≤ max limits.expansions 0 ∧
            ((unrolled nodes).length : Int) ≤ limits.moves) ∧
        (max limits.expansions 0 < (cost nodes : Int) →
          ∃ line, commands limits source = .error (.tooMuchExpansion line)) ∧
        ((cost nodes : Int) ≤ max limits.expansions 0 →
          limits.moves < ((unrolled nodes).length : Int) →
          commands limits source =
            .error (.tooManyMoves (unrolled nodes).length limits.moves)) := by
  refine ⟨fun most nodes => ⟨Tree.unroll_eq_ok, Tree.unroll_eq_error⟩, ?_⟩
  intro limits source nodes hblank hallowed htree
  refine ⟨fun ds => ?_, commands_of_lt_cost hblank hallowed htree, fun hcost hmany => ?_⟩
  · by_cases hcost : (cost nodes : Int) ≤ max limits.expansions 0
    · rw [commands_of_cost_le hblank hallowed htree hcost]
      by_cases hmany : limits.moves < ((unrolled nodes).length : Int)
      · rw [if_pos hmany]
        refine iff_of_false (by simp) fun h => ?_
        exact absurd h.2.2 (Int.not_le.mpr hmany)
      · rw [if_neg hmany, Except.ok.injEq]
        exact ⟨fun h => ⟨h.symm, hcost, Int.not_lt.mp hmany⟩, fun h => h.1.symm⟩
    · obtain ⟨line, hline⟩ := commands_of_lt_cost hblank hallowed htree (Int.not_le.mp hcost)
      rw [hline]
      exact iff_of_false (by simp) fun h => absurd h.2.1 hcost
  · rw [commands_of_cost_le hblank hallowed htree hcost, if_pos hmany]

/-- Three rounds with two rounds in each: the inner loop is come upon three times. -/
def twoDeep : String :=
  "for (let i = 0; i < 3; i++) \x7b for (let i = 0; i < 2; i++) \x7b moveUp(); \x7d " ++
    "moveLeft(); \x7d"

/-- The tree of `twoDeep` costs four and stands for nine moves. -/
theorem exists_tree_twoDeep (limits : Limits)
    (h : ((tree limits twoDeep).toOption.map fun nodes => (cost nodes, (unrolled nodes).length)) =
      some (4, 9)) :
    ∃ nodes, tree limits twoDeep = .ok nodes ∧ cost nodes = 4 ∧ (unrolled nodes).length = 9 := by
  cases htree : tree limits twoDeep with
  | error f =>
    rw [htree] at h
    cases h
  | ok nodes =>
    rw [htree] at h
    obtain ⟨hcost, hlen⟩ := Prod.mk.inj (Option.some.inj h)
    exact ⟨nodes, rfl, hcost, hlen⟩

/-- Nine moves at a cost of four are made, unless eight moves or three loops are the
most. -/
theorem commands_eq_unrolled_twoDeep :
    (∃ nodes, tree { expansions := 4 } twoDeep = .ok nodes ∧
      commands { expansions := 4, moves := 9 } twoDeep = .ok (unrolled nodes) ∧
      commands { expansions := 4, moves := 8 } twoDeep = .error (.tooManyMoves 9 8)) ∧
      ∃ line, commands { expansions := 3, moves := 8 } twoDeep =
        .error (.tooMuchExpansion line) := by
  have hblank : Text.blank twoDeep = false := by decide +kernel
  have hallowed : checkAllowed twoDeep = .ok () := by decide +kernel
  obtain ⟨nodes, htree, hcost, hlen⟩ :=
    exists_tree_twoDeep { expansions := 4 } (by decide +kernel)
  obtain ⟨nodes', htree', hcost', -⟩ :=
    exists_tree_twoDeep { expansions := 3, moves := 8 } (by decide +kernel)
  refine ⟨⟨nodes, htree, ?_, ?_⟩, ?_⟩
  · have h := (commands_eq_unrolled.2 { expansions := 4, moves := 9 } twoDeep nodes hblank
      hallowed htree).1
    exact (h _).mpr ⟨rfl, by rw [hcost]; decide, by rw [hlen]; decide⟩
  · have h := (commands_eq_unrolled.2 { expansions := 4, moves := 8 } twoDeep nodes hblank
      hallowed htree).2.2
    rw [hcost, hlen] at h
    exact h (by decide) (by decide)
  · refine (commands_eq_unrolled.2 { expansions := 3, moves := 8 } twoDeep nodes' hblank
      hallowed htree').2.1 ?_
    rw [hcost']
    decide

end ScriptedMaze.Script
