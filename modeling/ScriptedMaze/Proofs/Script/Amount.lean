import Mathlib.Tactic.GCongr
import Mathlib.Tactic.Ring
import ScriptedMaze.Proofs.Script.Accepted
import ScriptedMaze.Proofs.Script.Outline
import ScriptedMaze.Proofs.Script.Unrolled

/-!
# How many moves a script can ask for

Loops multiply, so that the moves a tree stands for may be as many as the rounds of its
loops multiplied with each other, level by level. They are counted only once they are all
there. Still the list is never longer than a few times the script: where the unrolling
succeeds, it is linear in the moves that are written down (`Script.length_le_of_unroll`).

What pays for it is the cost. A written move is copied by the loops around it. The
innermost has at most as many rounds as a loop may have, and if it has no braces then no
loop is below it. Every other copy comes with a copy of a braced loop, and that copy has
been counted. So a written move has the rounds of its own loop, and as many more for every
loop that was counted (`Script.length_unrolled_le`).

That a loop has not too many rounds, and holds only moves if it has no braces
(`Script.Node.Within`), is read off the tokens: a node mirrors what stands in its place, and
in a script with a tree only loops that are allowed stand anywhere
(`Script.within_of_ofTokens`).
-/

namespace ScriptedMaze

/-- Whether a token asks for a move. -/
def Token.isMove (t : Token) : Bool :=
  match t.lexeme with
  | .move _ => true
  | _ => false

namespace Script

open Loop List

variable {b n : Nat} {maxBound maxDepth most : Int} {node : Node} {nodes body : List Node}
  {s ts behind : List Token} {source : String} {limits : Limits}

/-! ### The moves that are written down -/

/-- The moves that are written down in a source. -/
def moveCount (source : String) : Nat := (tokens source).countP Token.isMove

/-- The moves that are written down in a node. -/
def Node.leaves (node : Node) : Nat := node.preorder.countP Node.isMove

/-- The moves that are written down in a tree. -/
def leaves (nodes : List Node) : Nat := (preorder nodes).countP Node.isMove

theorem leaves_cons (node : Node) (nodes : List Node) :
    leaves (node :: nodes) = node.leaves + leaves nodes := by
  rw [leaves, preorder, countP_append, Node.leaves, leaves]

theorem Node.leaves_loop (n : Nat) (body : List Node) (braced : Bool) (line : Nat) :
    (Node.loop n body braced line).leaves = Script.leaves body := by
  rw [Node.leaves, Node.preorder, countP_cons_of_neg (by simp [Node.isMove]), Script.leaves]

theorem isSome_moveNode? (t : Token) : (moveNode? t).isSome = t.isMove := by
  unfold moveNode? Token.isMove
  cases t.lexeme <;> rfl

/-- **A tree has the moves of its source, each of them once.** -/
theorem leaves_of_ofTokens (h : Tree.ofTokens maxBound maxDepth (tokens source) = .ok nodes) :
    leaves nodes = moveCount source := by
  have hmoves := (Tree.reads_of_ofTokens (ended_tokens source) h).outlines.moves
  rw [leaves, countP_eq_length_filter, hmoves, length_filterMap_eq_countP, moveCount]
  exact congrArg (countP · (tokens source)) (funext isSome_moveNode?)

/-- What is taken for a move has characters, and the end of a text is no move. -/
theorem countP_scanFrom_le (p : Place) (cs : List Char) :
    (Token.scanFrom p cs).countP Token.isMove ≤ cs.length := by
  fun_induction Token.scanFrom p cs with
  | case1 p => simp [Token.isMove, Token.placed]
  | case2 p c r cut rest k hk ih =>
    have hlt : cut.rest.length < (c :: r).length := Lexeme.length_rest_take c r
    have hrest : countP Token.isMove rest ≤ cut.rest.length := ih
    rw [countP_cons]
    split <;> omega
  | case3 p c r cut rest hk ih =>
    have hlt : cut.rest.length < (c :: r).length := Lexeme.length_rest_take c r
    exact ih.trans hlt.le

theorem length_unifyLineEnds_le (cs : List Char) :
    (Text.unifyLineEnds cs).length ≤ cs.length := by
  fun_induction Text.unifyLineEnds cs with
  | case1 r ih => simp only [length_cons]; omega
  | case2 r _ ih => simp only [length_cons]; omega
  | case3 c r _ _ ih => simp only [length_cons]; omega
  | case4 => rfl

/-- **A source has no more moves than characters.** -/
theorem moveCount_le_length (source : String) : moveCount source ≤ source.length := by
  calc moveCount source ≤ (Text.unifyLineEnds source.toList).length := countP_scanFrom_le {} _
    _ ≤ source.toList.length := length_unifyLineEnds_le _
    _ = source.length := String.length_toList

/-! ### Loops within bounds -/

/-- **A node is within bounds**: a loop has at most `b` rounds, and if it has no braces it
holds only moves. -/
def Node.Within (b : Nat) : Node → Prop
  | .move _ _ => True
  | .loop n body braced _ => n ≤ b ∧ (braced = false → ∀ m ∈ body, m.isMove = true)

theorem Node.Within.mono {b' : Nat} (h : node.Within b) (hb : b ≤ b') : node.Within b' := by
  cases node with
  | move => trivial
  | loop => exact ⟨h.1.trans hb, h.2⟩

/-- Where a node begins, the tokens go on to their end. -/
theorem suffix_of_mem_starts (h : s ∈ starts ts behind) : s <:+ ts ++ behind := by
  induction ts with
  | nil => cases h
  | cons t ts ih =>
    rw [starts] at h
    split at h
    · rcases mem_cons.mp h with rfl | h
      · exact suffix_rfl
      · exact (ih h).trans (suffix_cons t _)
    · exact (ih h).trans (suffix_cons t _)

/-- Only moves come of the tokens that ask for moves. -/
theorem isMove_of_mem_moves (h : node ∈ ts.filterMap moveNode?) : node.isMove = true := by
  obtain ⟨t, -, ht⟩ := mem_filterMap.mp h
  unfold moveNode? at ht
  split at ht <;> cases ht
  rfl

/-- A node that stands in the place of a loop that fits is within bounds. -/
theorem Node.Mirrors.within (h : node.Mirrors s)
    (hfits : atLoop s = true → ∃ before, Fits maxBound maxDepth before s) :
    node.Within maxBound.toNat := by
  have hrounds : ∀ {n f head later}, IsOpening n (f :: head) → s = f :: head ++ later →
      n ≤ maxBound.toNat := by
    intro n f head later ho hs
    obtain ⟨before, n', opening, later', hs', ho', hn', -⟩ :=
      hfits (hs ▸ ho.atLoop_append later)
    obtain ⟨-, rfl, -⟩ := ho.unique ho' (hs.symm.trans hs')
    omega
  cases h with
  | move => trivial
  | run ho => exact ⟨hrounds ho rfl, fun _ m hm => isMove_of_mem_moves hm⟩
  | block ho => exact ⟨hrounds ho rfl, fun hb => by cases hb⟩

/-- Nodes that stand in the places of loops that fit are within bounds. -/
theorem forall_within (maxBound maxDepth : Int) {places : List (List Token)}
    (h : Forall₂ Node.Mirrors nodes places)
    (hfits : ∀ s ∈ places, atLoop s = true → ∃ before, Fits maxBound maxDepth before s) :
    ∀ node ∈ nodes, node.Within maxBound.toNat := by
  induction h with
  | nil => simp
  | cons hnode _ ih =>
    obtain ⟨hs, hplaces⟩ := forall_mem_cons.mp hfits
    exact forall_mem_cons.mpr ⟨hnode.within hs, ih hplaces⟩

/-- **All nodes of a tree that was read are within bounds.** -/
theorem within_of_ofTokens (h : Tree.ofTokens maxBound maxDepth (tokens source) = .ok nodes) :
    ∀ node ∈ preorder nodes, node.Within maxBound.toNat := by
  have hallowed := (Tree.exists_ofTokens_iff maxBound maxDepth (ended_tokens source)).mp
    ⟨nodes, h⟩
  have houtlines := (Tree.reads_of_ofTokens (ended_tokens source) h).outlines
  refine forall_within maxBound maxDepth houtlines.mirrors fun s hs hloop => ?_
  obtain ⟨before, heq⟩ := suffix_of_mem_starts hs
  rw [append_nil] at heq
  exact ⟨before, (hallowed before s heq.symm hloop).fits⟩

/-! ### What is copied has been counted -/

theorem length_unrolled_of_moves (h : ∀ m ∈ body, m.isMove = true) :
    (unrolled body).length = leaves body ∧ cost body = 0 := by
  induction body with
  | nil => exact ⟨rfl, rfl⟩
  | cons m body ih =>
    obtain ⟨hm, hbody⟩ := forall_mem_cons.mp h
    obtain ⟨hlen, hcost⟩ := ih hbody
    cases m with
    | move d line =>
      rw [unrolled, length_append, leaves_cons, hlen, cost, hcost]
      exact ⟨rfl, rfl⟩
    | loop => cases hm

theorem length_unrolled_loop (n : Nat) (body : List Node) (braced : Bool) (line : Nat) :
    (Node.loop n body braced line).unrolled.length = n * (unrolled body).length := by
  rw [Node.unrolled, length_flatten, map_replicate, sum_replicate_nat]

/-- What two stretches of nodes may come to is no more than what they may come to
together. -/
theorem mul_one_add_mul_add_le (b l l' c c' : Nat) :
    b * l * (1 + b * c) + b * l' * (1 + b * c') ≤ b * (l + l') * (1 + b * (c + c')) := by
  calc b * l * (1 + b * c) + b * l' * (1 + b * c')
      ≤ b * l * (1 + b * (c + c')) + b * l' * (1 + b * (c + c')) := by gcongr <;> omega
    _ = b * (l + l') * (1 + b * (c + c')) := by ring

mutual

/-- A node within bounds stands for a list that is linear in its moves, with what it costs
for the factor. -/
theorem Node.length_unrolled_le (hb : 1 ≤ b) :
    (node : Node) → (∀ m ∈ node.preorder, m.Within b) →
      node.unrolled.length ≤ b * node.leaves * (1 + b * node.cost)
  | .move d line, _ => by
    change 1 ≤ b * 1 * (1 + b * 0)
    omega
  | .loop n body braced line, h => by
    rw [Node.preorder, forall_mem_cons] at h
    obtain ⟨⟨hn, hmoves⟩, hbody⟩ := h
    rw [length_unrolled_loop, Node.leaves_loop, Node.cost]
    cases braced with
    | false =>
      -- nothing is counted, and no loop is below
      obtain ⟨hlen, hcost⟩ := length_unrolled_of_moves (hmoves rfl)
      rw [hlen, hcost]
      simpa using Nat.mul_le_mul_right (leaves body) hn
    | true =>
      -- the copies of the body go with the copies of what it costs, and the first with the loop
      have ih := length_unrolled_le hb body hbody
      have hrounds : n + b * (n * cost body) ≤ 1 + b * (n * cost body + 1) := by
        rw [Nat.mul_succ]
        omega
      rw [if_pos rfl]
      calc n * (unrolled body).length
          ≤ n * (b * leaves body * (1 + b * cost body)) := by gcongr
        _ = b * leaves body * (n + b * (n * cost body)) := by ring
        _ ≤ b * leaves body * (1 + b * (n * cost body + 1)) := by gcongr

/-- **A tree within bounds stands for a list that is linear in its moves**, with what the
tree costs for the factor. -/
theorem length_unrolled_le (hb : 1 ≤ b) :
    (nodes : List Node) → (∀ m ∈ preorder nodes, m.Within b) →
      (unrolled nodes).length ≤ b * leaves nodes * (1 + b * cost nodes)
  | [], _ => Nat.zero_le _
  | node :: nodes, h => by
    rw [preorder, forall_mem_append] at h
    rw [unrolled, length_append, leaves_cons, cost]
    calc node.unrolled.length + (unrolled nodes).length
        ≤ b * node.leaves * (1 + b * node.cost) + b * leaves nodes * (1 + b * cost nodes) :=
          Nat.add_le_add (node.length_unrolled_le hb h.1) (length_unrolled_le hb nodes h.2)
      _ ≤ b * (node.leaves + leaves nodes) * (1 + b * (node.cost + cost nodes)) :=
          mul_one_add_mul_add_le ..

end

/-! ### Scripts -/

/-- What is unrolled is what the tree stands for, and it has been paid for. -/
theorem eq_unrolled_of_unroll {ds : List Direction} (h : Tree.unroll most nodes = .ok ds) :
    ds = unrolled nodes ∧ (cost nodes : Int) ≤ max most 0 := by
  by_cases hcost : (cost nodes : Int) ≤ max most 0
  · rw [Tree.unroll_eq_ok hcost] at h
    cases h
    exact ⟨rfl, hcost⟩
  · obtain ⟨line, hline⟩ := Tree.unroll_eq_error (Int.not_le.mp hcost)
    cases h.symm.trans hline

/-- The moves of a source have been counted, and there are `n` of them: they are allowed, or
there are too many. -/
def Counted (limits : Limits) (source : String) (n : Nat) : Prop :=
  (∃ ds, commands limits source = .ok ds ∧ ds.length = n) ∨
    commands limits source = .error (.tooManyMoves n limits.moves)

/-- The moves of a source are counted where they have been unrolled, and nowhere before. -/
theorem exists_unroll_of_counted (h : Counted limits source n) :
    ∃ nodes ds, tree limits source = .ok nodes ∧
      Tree.unroll limits.expansions nodes = .ok ds ∧ ds.length = n := by
  have hne : ∀ f, commands limits source = .error f → f.kind = .moveLimitExceeded := by
    intro f hf
    rcases h with ⟨ds, hds, -⟩ | h
    · cases hds.symm.trans hf
    · cases h.symm.trans hf
      rfl
  rcases commands_cases limits source with
    he | ⟨f, hf, he⟩ | ⟨f, hf, he⟩ | ⟨line, he⟩ | ⟨-, nodes, htree, hcost, he⟩
  · cases hne _ he
  · have hkind := hne f he
    unfold checkAllowed at hf
    split at hf <;> cases hf
    cases hkind
  · have hmem := Tree.kind_of_ofTokens hf
    rw [hne f he] at hmem
    exact absurd hmem (by decide)
  · cases hne _ he
  · refine ⟨nodes, unrolled nodes, htree, Tree.unroll_eq_ok hcost, ?_⟩
    rcases h with ⟨ds, hds, rfl⟩ | h
    · rw [hds] at he
      split at he <;> cases he
      rfl
    · rw [h] at he
      split at he <;> cases he
      rfl

/-- What is unrolled is linear in the moves of the source. -/
theorem length_le_of_ofTokens {ds : List Direction}
    (htree : Tree.ofTokens maxBound maxDepth (tokens source) = .ok nodes)
    (hds : Tree.unroll most nodes = .ok ds) :
    (ds.length : Int) ≤ max maxBound 1 * moveCount source * (1 + max most 0 * max maxBound 1) := by
  obtain ⟨rfl, hcost⟩ := eq_unrolled_of_unroll hds
  have hwithin : ∀ m ∈ preorder nodes, m.Within (max maxBound.toNat 1) := fun m hm =>
    (within_of_ofTokens htree m hm).mono (Nat.le_max_left ..)
  have hle := length_unrolled_le (Nat.le_max_right ..) nodes hwithin
  rw [leaves_of_ofTokens htree] at hle
  have hb : ((max maxBound.toNat 1 : Nat) : Int) = max maxBound 1 := by omega
  have hpos : (0 : Int) ≤ max maxBound 1 := by omega
  calc ((unrolled nodes).length : Int)
      ≤ (max maxBound.toNat 1 : Nat) * moveCount source *
          (1 + (max maxBound.toNat 1 : Nat) * cost nodes) := by exact_mod_cast hle
    _ = max maxBound 1 * moveCount source * (1 + cost nodes * max maxBound 1) := by
        rw [hb, Int.mul_comm _ (cost nodes : Int)]
    _ ≤ max maxBound 1 * moveCount source * (1 + max most 0 * max maxBound 1) :=
        Int.mul_le_mul_of_nonneg_left
          (Int.add_le_add_left (Int.mul_le_mul_of_nonneg_right hcost hpos) 1)
          (Int.mul_nonneg hpos (Int.natCast_nonneg _))

/-- **The moves of a script are no more than a few times the moves that are written down in
it**, however deep its loops are nested: what is unrolled is linear in the source, before
anyone has counted it. -/
theorem length_le_of_unroll :
    (∀ (maxBound maxDepth most : Int) (source : String) (nodes : List Node)
        (ds : List Direction), Tree.ofTokens maxBound maxDepth (tokens source) = .ok nodes →
        Tree.unroll most nodes = .ok ds →
        (ds.length : Int) ≤
          max maxBound 1 * moveCount source * (1 + max most 0 * max maxBound 1)) ∧
      (∀ (limits : Limits) (source : String) (n : Nat), Counted limits source n →
        (n : Int) ≤ max limits.bound 1 * moveCount source *
          (1 + max limits.expansions 0 * max limits.bound 1)) ∧
      ∀ source : String, moveCount source ≤ source.length := by
  refine ⟨fun _ _ _ _ _ _ => length_le_of_ofTokens, fun limits source n h => ?_,
    moveCount_le_length⟩
  obtain ⟨nodes, ds, htree, hds, rfl⟩ := exists_unroll_of_counted h
  exact length_le_of_ofTokens htree hds

/-- Three loops of two rounds, one in the other, around a move. -/
def threeDeep : String :=
  "for (let i = 0; i < 2; i++) \x7b for (let i = 0; i < 2; i++) \x7b " ++
    "for (let i = 0; i < 2; i++) \x7b moveUp(); \x7d \x7d \x7d"

/-- The move is made eight times, and seven loops are counted for it. -/
theorem length_le_of_unroll_threeDeep :
    (∃ nodes ds, Tree.ofTokens 2 3 (tokens threeDeep) = .ok nodes ∧
      Tree.unroll 7 nodes = .ok ds ∧ ds.length = 8 ∧ moveCount threeDeep = 1 ∧
      (ds.length : Int) ≤ max 2 1 * moveCount threeDeep * (1 + max 7 0 * max 2 1)) ∧
    Counted { bound := 2, expansions := 7, moves := 5 } threeDeep 8 ∧
      (8 : Int) ≤ max 2 1 * moveCount threeDeep * (1 + max 7 0 * max 2 1) := by
  have hcount : moveCount threeDeep = 1 := by decide +kernel
  have hread : ((Tree.ofTokens 2 3 (tokens threeDeep)).toOption.bind fun nodes =>
      (Tree.unroll 7 nodes).toOption.map List.length) = some 8 := by decide +kernel
  have hmany : Counted { bound := 2, expansions := 7, moves := 5 } threeDeep 8 :=
    Or.inr (by decide +kernel)
  refine ⟨?_, hmany, length_le_of_unroll.2.1 _ _ _ hmany⟩
  cases htree : Tree.ofTokens 2 3 (tokens threeDeep) with
  | error f =>
    rw [htree] at hread
    cases hread
  | ok nodes =>
    rw [htree] at hread
    change (Tree.unroll 7 nodes).toOption.map List.length = some 8 at hread
    cases hds : Tree.unroll 7 nodes with
    | error f =>
      rw [hds] at hread
      cases hread
    | ok ds =>
      rw [hds] at hread
      exact ⟨nodes, ds, rfl, hds, Option.some_inj.mp hread, hcount,
        length_le_of_unroll.1 2 3 7 threeDeep nodes ds htree hds⟩

end Script

end ScriptedMaze
