import ScriptedMaze.Script.Tree

/-!
# Unrolling loops

Unrolling turns a tree into its moves, each loop into as many copies of its body
as it has rounds. Loops multiply, and so the work is bounded: every time a
braced loop is come upon counts, inside every copy of an outer loop's body
again, and there is a most that may be counted. A loop without braces holds only
moves and is not counted.

The count runs through the whole tree (`Node.unroll`, from what is `used`
already), and the unrolling stops at the loop that exceeds it.
-/

namespace ScriptedMaze.Script

/-- Does something `n` times, collecting the moves and passing on the count. -/
def rounds (once : Nat → Except Fault (List Direction × Nat)) :
    (n : Nat) → (used : Nat) → Except Fault (List Direction × Nat)
  | 0, used => .ok ([], used)
  | n + 1, used =>
    match once used with
    | .error e => .error e
    | .ok (ds, used) =>
      match rounds once n used with
      | .error e => .error e
      | .ok (ds', used) => .ok (ds ++ ds', used)

mutual

/-- The moves of a node, and the count after it. -/
def Node.unroll (most : Int) : Node → (used : Nat) → Except Fault (List Direction × Nat)
  | .move d _, used => .ok ([d], used)
  | .loop count body braced line, used =>
    if braced ∧ most < used + 1 then .error (.tooMuchExpansion line)
    else rounds (unrollAll most body) count (if braced then used + 1 else used)

/-- The moves of nodes in order, and the count after them. -/
def unrollAll (most : Int) : List Node → (used : Nat) → Except Fault (List Direction × Nat)
  | [], used => .ok ([], used)
  | node :: rest, used =>
    match node.unroll most used with
    | .error e => .error e
    | .ok (ds, used) =>
      match unrollAll most rest used with
      | .error e => .error e
      | .ok (ds', used) => .ok (ds ++ ds', used)

end

namespace Tree

/-- The moves of a tree, if at most `most` braced loops are come upon. -/
def unroll (most : Int) (nodes : List Node) : Except Fault (List Direction) :=
  (unrollAll most nodes 0).map (·.1)

end Tree

end ScriptedMaze.Script
