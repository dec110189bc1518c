import Mathlib.Data.List.Forall2
import ScriptedMaze.Proofs.Script.Ending
import ScriptedMaze.Proofs.Script.Steps

/-!
# A tree has every move and every loop in its place

The moves and the loops of a script begin at certain places of its tokens
(`starts`), and the nodes of its tree come in a certain order, each before those
below it (`preorder`). The two lists belong together, member by member: the node is
a move and stands there, or it is a loop, and its rounds and its line are those of
the opening that stands there (`Node.Begins`).

That settles which nodes there are, and in what order; what a loop holds is settled
by comparing its body in the same way with what stands behind its opening
(`Node.Mirrors`). With braces, these are the places between the brace and its
partner; without, the moves of the run.

All of it is read off `Reads`, by induction on how the tokens were read
(`Reads.mirrors`), and so holds of every script that has a tree
(`Tree.outlines_of_ofTokens`).
-/

namespace ScriptedMaze.Script

open Loop List

variable {t : Token} {a b ts behind : List Token} {nodes : List Node}

/-! ### The places at which nodes begin -/

/-- **The places of a stretch at which a move or a loop begins**, each as the tokens
from there on; `behind` follows the stretch. -/
def starts : (stretch behind : List Token) → List (List Token)
  | [], _ => []
  | t :: ts, behind =>
    if (moveNode? t).isSome || atLoop (t :: (ts ++ behind)) then
      (t :: (ts ++ behind)) :: starts ts behind
    else starts ts behind

theorem starts_cons_of_move (h : (moveNode? t).isSome) :
    starts (t :: ts) behind = (t :: (ts ++ behind)) :: starts ts behind := by
  rw [starts, h, Bool.true_or, if_pos rfl]

theorem starts_cons_of_atLoop (h : atLoop (t :: (ts ++ behind)) = true) :
    starts (t :: ts) behind = (t :: (ts ++ behind)) :: starts ts behind := by
  rw [starts, h, Bool.or_true, if_pos rfl]

theorem starts_cons_of_none (h : moveNode? t = none)
    (hloop : atLoop (t :: (ts ++ behind)) = false) :
    starts (t :: ts) behind = starts ts behind := by
  rw [starts, h, hloop]
  rfl

theorem starts_append (a b behind : List Token) :
    starts (a ++ b) behind = starts a (b ++ behind) ++ starts b behind := by
  induction a with
  | nil => rfl
  | cons t a ih =>
    rw [cons_append, starts, starts, ih, append_assoc]
    split <;> rfl

/-- Nothing begins in a stretch that has neither moves nor loops. -/
theorem starts_eq_nil (h : ∀ t ∈ ts, moveNode? t = none) (hfree : LoopFree ts behind) :
    starts ts behind = [] := by
  induction ts with
  | nil => rfl
  | cons t ts ih =>
    rw [starts_cons_of_none (h t mem_cons_self) hfree.1]
    exact ih (fun u hu => h u (mem_cons_of_mem t hu)) hfree.2

/-! ### The nodes of a tree in order -/

mutual

/-- A node and the nodes below it, in the order in which they begin. -/
def Node.preorder : Node → List Node
  | .move d line => [.move d line]
  | .loop n body braced line => .loop n body braced line :: preorder body

/-- **All nodes of a tree** in the order in which they begin. -/
def preorder : List Node → List Node
  | [] => []
  | node :: nodes => node.preorder ++ preorder nodes

end

namespace Node

/-- Whether a node is a move. -/
def isMove : Node → Bool
  | move .. => true
  | loop .. => false

/-- Whether a node is a loop. -/
def isLoop : Node → Bool
  | move .. => false
  | loop .. => true

/-- **A node begins at these tokens**: its move is the first of them, or its rounds
and its line are those of the opening that stands there. -/
inductive Begins : Node → List Token → Prop
  | move {t : Token} {d : Direction} {rest : List Token} : t.lexeme = .move d →
      Begins (.move d t.line) (t :: rest)
  | loop {n : Nat} {body : List Node} {braced : Bool} {f : Token} {head later : List Token} :
      IsOpening n (f :: head) → Begins (.loop n body braced f.line) (f :: head ++ later)

/-- **A node holds what stands in its place**: it begins there, and the body of a loop
is what stands behind the opening. -/
inductive Mirrors : Node → List Token → Prop
  | move {t : Token} {d : Direction} {rest : List Token} : t.lexeme = .move d →
      Mirrors (.move d t.line) (t :: rest)
  /-- Without braces, the body is the moves of the run. -/
  | run {n : Nat} {f t : Token} {head later : List Token} : IsOpening n (f :: head) →
      t.lexeme ≠ .openBrace →
      Mirrors (.loop n ((run (t :: later)).filterMap moveNode?) false f.line)
        (f :: head ++ t :: later)
  /-- With braces, the nodes of the body are those that begin between the brace and its
  partner. -/
  | block {n : Nat} {body : List Node} {f o x : Token} {head inside later : List Token} :
      IsOpening n (f :: head) → o.lexeme = .openBrace → Balanced inside →
      x.lexeme = .closeBrace → Forall₂ Begins (Script.preorder body) (starts inside (x :: later)) →
      Mirrors (.loop n body true f.line) (f :: head ++ o :: (inside ++ x :: later))

theorem Mirrors.begins {node : Node} {s : List Token} (h : Mirrors node s) : Begins node s := by
  cases h with
  | move ht => exact .move ht
  | run ho => exact .loop ho
  | block ho => exact .loop ho

end Node

theorem preorder_moves (ts : List Token) :
    preorder (ts.filterMap moveNode?) = ts.filterMap moveNode? := by
  induction ts with
  | nil => rfl
  | cons t ts ih =>
    cases ht : moveNode? t with
    | none => rwa [filterMap_cons_none ht]
    | some node =>
      rw [filterMap_cons_some ht, preorder, ih]
      unfold moveNode? at ht
      split at ht
      · cases ht
        rfl
      · cases ht

/-! ### What was read is in its place -/

theorem moveNode?_of_move {d : Direction} (h : t.lexeme = .move d) :
    moveNode? t = some (.move d t.line) := by
  rw [moveNode?, h]

/-- The moves of a stretch without loops begin where they stand. -/
theorem mirrors_moves (hfree : LoopFree ts behind) :
    Forall₂ Node.Mirrors (ts.filterMap moveNode?) (starts ts behind) := by
  induction ts with
  | nil => exact .nil
  | cons t ts ih =>
    by_cases hmove : ∃ d, t.lexeme = .move d
    · obtain ⟨d, hd⟩ := hmove
      have ht := moveNode?_of_move hd
      rw [filterMap_cons_some ht, starts_cons_of_move (by rw [ht]; rfl)]
      exact .cons (.move hd) (ih hfree.2)
    · have ht := moveNode?_of_ne fun d hd => hmove ⟨d, hd⟩
      rw [filterMap_cons_none ht, starts_cons_of_none ht hfree.1]
      exact ih hfree.2

/-- Nothing but a loop begins in its opening. -/
theorem starts_opening {n : Nat} {f : Token} {head : List Token} (h : IsOpening n (f :: head)) :
    starts (f :: head ++ b) behind = (f :: head ++ (b ++ behind)) :: starts b behind := by
  have hloop := h.atLoop_append (b ++ behind)
  have hhead : starts head (b ++ behind) = [] :=
    starts_eq_nil (fun t ht => h.moveNode?_eq_none (mem_cons_of_mem f ht))
      (loopFree_of_ne_for fun _ => h.ne_for)
  rw [cons_append, ← append_assoc] at hloop
  rw [cons_append, starts_cons_of_atLoop hloop, starts_append, hhead, append_assoc]
  rfl

/-- **What was read is in its place.** -/
theorem Reads.mirrors (h : Reads ts behind nodes) :
    Forall₂ Node.Mirrors (preorder nodes) (starts ts behind) := by
  induction h with
  | nil => exact .nil
  | @move t d ts behind nodes hd _ ih =>
    rw [preorder, starts_cons_of_move (by rw [moveNode?_of_move hd]; rfl)]
    exact .cons (.move hd) ih
  | @skip t ts behind nodes ht hloop _ ih =>
    rwa [starts_cons_of_none ht hloop]
  | @run n f head inner ts behind nodes ho hinner _ ih =>
    rw [starts_opening ho, starts_append, preorder, Node.preorder, preorder_moves, cons_append]
    refine .cons ?_ (rel_append (mirrors_moves hinner.loopFree) ih)
    -- the body holds the moves of the run, and the run is told by what follows
    obtain ⟨t, later, heq, hopen, -⟩ := hinner.first
    rw [append_assoc, hinner.filterMap_eq, heq]
    exact .run ho hopen
  | @block n f o x head inside ts behind body nodes ho hopen hbal hx _ _ ihin ih =>
    -- no node begins at either brace
    have hbraces : ∀ k : Token, k.lexeme = .openBrace ∨ k.lexeme = .closeBrace → ∀ a b,
        starts (k :: a) b = starts a b := by
      intro k hk a b
      refine starts_cons_of_none (moveNode?_of_ne fun d => ?_) (atLoop_eq_false ?_) <;>
        rcases hk with hk | hk <;> simp [hk]
    rw [starts_opening ho, hbraces o (Or.inl hopen), starts_append, hbraces x (Or.inr hx),
      preorder, Node.preorder, cons_append]
    refine .cons ?_ (rel_append ihin ih)
    rw [cons_append, cons_append, append_assoc]
    exact .block ho hopen hbal hx (ihin.imp fun _ _ => Node.Mirrors.begins)

/-! ### Moves and loops apart -/

namespace Node.Begins

variable {node : Node} {rest : List Token}

theorem eq_move {d : Direction} (h : Begins node (t :: rest)) (ht : t.lexeme = .move d) :
    node = .move d t.line := by
  generalize hs : t :: rest = s at h
  cases h with
  | move hd =>
    cases hs
    rw [ht, Lexeme.move.injEq] at hd
    rw [hd]
  | loop ho =>
    cases hs
    obtain ⟨f, p, head, heq, hf, -⟩ := ho.exists_cons
    cases heq
    exact absurd (ht.symm.trans hf) (by simp)

theorem isLoop_eq_true (h : Begins node (t :: rest)) (ht : t.lexeme = .word "for") :
    node.isLoop = true ∧ node.isMove = false := by
  generalize hs : t :: rest = s at h
  cases h with
  | move hd =>
    cases hs
    exact absurd (hd.symm.trans ht) (by simp)
  | loop => exact ⟨rfl, rfl⟩

end Node.Begins

/-- The places at which nodes begin, token by token. -/
theorem starts_cases (t : Token) (ts behind : List Token) :
    (∃ d, t.lexeme = .move d ∧ moveNode? t = some (.move d t.line) ∧
        atLoop (t :: (ts ++ behind)) = false ∧
        starts (t :: ts) behind = (t :: (ts ++ behind)) :: starts ts behind) ∨
      (t.lexeme = .word "for" ∧ moveNode? t = none ∧ atLoop (t :: (ts ++ behind)) = true ∧
        starts (t :: ts) behind = (t :: (ts ++ behind)) :: starts ts behind) ∨
      (moveNode? t = none ∧ atLoop (t :: (ts ++ behind)) = false ∧
        starts (t :: ts) behind = starts ts behind) := by
  by_cases hmove : ∃ d, t.lexeme = .move d
  · obtain ⟨d, hd⟩ := hmove
    have ht := moveNode?_of_move hd
    exact Or.inl ⟨d, hd, ht, atLoop_eq_false (by simp [hd]),
      starts_cons_of_move (by rw [ht]; rfl)⟩
  · have ht := moveNode?_of_ne fun d hd => hmove ⟨d, hd⟩
    cases hloop : atLoop (t :: (ts ++ behind)) with
    | true =>
      exact Or.inr (Or.inl ⟨(atLoop_cons.mp hloop).1, ht, rfl, starts_cons_of_atLoop hloop⟩)
    | false => exact Or.inr (Or.inr ⟨ht, rfl, starts_cons_of_none ht hloop⟩)

/-- The moves among nodes that begin at the places of a stretch are its moves. -/
theorem filter_isMove_eq (h : Forall₂ Node.Begins nodes (starts ts behind)) :
    nodes.filter Node.isMove = ts.filterMap moveNode? := by
  induction ts generalizing nodes with
  | nil =>
    cases h
    rfl
  | cons t ts ih =>
    rcases starts_cases t ts behind with ⟨d, hd, ht, -, hs⟩ | ⟨hfor, ht, -, hs⟩ | ⟨ht, -, hs⟩
    · rw [hs] at h
      obtain ⟨node, nodes, hb, h', rfl⟩ := forall₂_cons_right_iff.mp h
      obtain rfl := hb.eq_move hd
      rw [filterMap_cons_some ht, filter_cons_of_pos rfl, ih h']
    · rw [hs] at h
      obtain ⟨node, nodes, hb, h', rfl⟩ := forall₂_cons_right_iff.mp h
      rw [filterMap_cons_none ht, filter_cons_of_neg (by simp [(hb.isLoop_eq_true hfor).2]),
        ih h']
    · rw [hs] at h
      rw [filterMap_cons_none ht, ih h]

/-- The loops among nodes that begin at the places of the tokens begin where a loop
begins. -/
theorem forall₂_loops (h : Forall₂ Node.Begins nodes (starts ts [])) :
    Forall₂ Node.Begins (nodes.filter Node.isLoop) (ts.tails.filter atLoop) := by
  induction ts generalizing nodes with
  | nil =>
    cases h
    exact .nil
  | cons t ts ih =>
    have hcases := starts_cases t ts []
    rw [append_nil] at hcases
    rw [tails_cons]
    rcases hcases with ⟨d, hd, -, hloop, hs⟩ | ⟨hfor, -, hloop, hs⟩ | ⟨-, hloop, hs⟩
    · rw [hs] at h
      obtain ⟨node, nodes, hb, h', rfl⟩ := forall₂_cons_right_iff.mp h
      obtain rfl := hb.eq_move hd
      rw [filter_cons_of_neg (by simp [Node.isLoop]), filter_cons_of_neg (by simp [hloop])]
      exact ih h'
    · rw [hs] at h
      obtain ⟨node, nodes, hb, h', rfl⟩ := forall₂_cons_right_iff.mp h
      rw [filter_cons_of_pos (hb.isLoop_eq_true hfor).1, filter_cons_of_pos hloop]
      exact .cons hb (ih h')
    · rw [hs] at h
      rw [filter_cons_of_neg (by simp [hloop])]
      exact ih h

/-! ### Trees -/

/-- **Every move and every loop of the tokens is in its place among the nodes.** -/
structure Outlines (ts : List Token) (nodes : List Node) : Prop where
  /-- The moves, in order, are those of the tokens. -/
  moves : (preorder nodes).filter Node.isMove = ts.filterMap moveNode?
  /-- The loops, in order, begin where a loop begins in the tokens. -/
  loops : Forall₂ Node.Begins ((preorder nodes).filter Node.isLoop) (ts.tails.filter atLoop)
  /-- All nodes, in order, hold what stands in their places. -/
  mirrors : Forall₂ Node.Mirrors (preorder nodes) (starts ts [])

theorem Reads.outlines (h : Reads ts [] nodes) : Outlines ts nodes := by
  have hmirrors := h.mirrors
  have hbegins := hmirrors.imp fun _ _ => Node.Mirrors.begins
  exact ⟨filter_isMove_eq hbegins, forall₂_loops hbegins, hmirrors⟩

namespace Tree

variable {maxBound maxDepth : Int}

/-- A script that has a tree has been read to its end. -/
theorem reads_of_ofTokens (hend : Ended ts) (h : ofTokens maxBound maxDepth ts = .ok nodes) :
    Reads ts [] nodes := by
  rw [ofTokens] at h
  split at h
  · cases h
  · rename_i r hr
    obtain ⟨taken, heq, hp, hfin⟩ := Reading.pending_of_run (Reading.pending_start ts) hr
    change ts = taken ++ r.rest at heq
    unfold Reading.result at h
    split at h
    · cases h
    · rename_i hbraces
      cases h
      have hreads := hp.reads hbraces
      rw [nil_append] at hreads
      rcases hend.eq_nil_or ⟨taken, heq.symm⟩ hfin with hnil | ⟨e, he, hlex⟩
      · rw [hnil] at hreads heq
        rwa [heq, append_nil]
      · rw [he] at hreads heq
        have hskip : Reads [e] [] [] :=
          .skip_one (moveNode?_of_ne fun d => by simp [hlex]) rfl
        have happ := hreads.append hskip
        rwa [append_nil, ← heq] at happ

/-- **Whatever tree a script has, every move and every loop is in its place.** Whether there
is room enough to read it (`Script.commands?`) makes no difference to the tree. -/
theorem outlines_of_ofTokens {source : String}
    (h : ofTokens maxBound maxDepth (tokens source) = .ok nodes) :
    Outlines (tokens source) nodes :=
  (reads_of_ofTokens (ended_tokens source) h).outlines

/-- A block with a bare block in it, and a brace that closes nothing before. -/
def nested : String :=
  "\x7d for (let i = 0; i < 2; i++) \x7b moveUp(); \x7b for (let i = 0; i < 3; i++) " ++
    "moveLeft() moveDown(); \x7d moveUp(); \x7d"

/-- The bare block leaves no trace, and its brace does not close the loop. -/
theorem outlines_of_ofTokens_nested :
    ∃ nodes, ofTokens 20 20 (tokens nested) = .ok nodes ∧
      (preorder nodes).map Node.isLoop = [true, false, true, false, false, false] ∧
      Outlines (tokens nested) nodes := by
  have hread : (ofTokens 20 20 (tokens nested)).toOption.map
      (fun nodes => (preorder nodes).map Node.isLoop) =
        some [true, false, true, false, false, false] := by decide +kernel
  cases h : ofTokens 20 20 (tokens nested) with
  | error f =>
    rw [h] at hread
    cases hread
  | ok nodes =>
    rw [h] at hread
    exact ⟨nodes, rfl, Option.some_inj.mp hread, outlines_of_ofTokens h⟩

end Tree

end ScriptedMaze.Script
