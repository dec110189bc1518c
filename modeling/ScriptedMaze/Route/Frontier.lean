import ScriptedMaze.Maze.World

/-!
# The frontier of a search

A search keeps the worlds that it has come upon and not yet gone on from in a
frontier, each with what it cost to get there and an estimate of the whole way.
The entry to go on from next is the least one: by estimate, then by cost, then
by the order in which the entries were made (`Entry.before`). No two entries of
one search were made at once, so that the order is total.

The frontier is a leftist heap: a tree in which no entry comes before its
parent, and in which the right spine is the shortest way to a leaf. Everything
is done by merging two heaps along their right spines (`Frontier.merge`).

`Frontier.toList` is what a frontier holds. Pushing adds an entry and popping
takes one away, and neither does anything else to it (`toList_push`,
`toList_of_pop`).
-/

namespace ScriptedMaze.Route

/-- A world that a search has come upon. -/
structure Entry where
  /-- At least this many moves lead through the world to a flag. -/
  estimate : Nat
  /-- So many moves led to the world. -/
  cost : Nat
  /-- The number of entries made before. -/
  serial : Nat
  world : World

namespace Entry

/-- Whether an entry is to be gone on from before another. -/
def before (a b : Entry) : Bool :=
  a.estimate < b.estimate || (a.estimate = b.estimate &&
    (a.cost < b.cost || (a.cost = b.cost && a.serial < b.serial)))

end Entry

/-- A leftist heap of entries. -/
inductive Frontier where
  | empty
  /-- An entry above two heaps; the rank is the length of the right spine. -/
  | node (rank : Nat) (top : Entry) (left right : Frontier)

namespace Frontier

/-- The length of the right spine. -/
def rank : Frontier → Nat
  | empty => 0
  | node r _ _ _ => r

/-- The number of entries. -/
def size : Frontier → Nat
  | empty => 0
  | node _ _ l r => l.size + r.size + 1

/-- What the frontier holds. -/
def toList : Frontier → List Entry
  | empty => []
  | node _ e l r => e :: (l.toList ++ r.toList)

/-- An entry above two heaps, the one with the shorter spine to the right. -/
def join (e : Entry) (a b : Frontier) : Frontier :=
  if a.rank < b.rank then node (a.rank + 1) e b a else node (b.rank + 1) e a b

/-- The entries of two heaps in one. -/
def merge (a b : Frontier) : Frontier :=
  match a, b with
  | empty, b => b
  | a, empty => a
  | node r e la ra, node s f lb rb =>
    if f.before e then join f lb (merge (node r e la ra) rb)
    else join e la (merge ra (node s f lb rb))
termination_by a.size + b.size
decreasing_by
  all_goals simp only [size]; omega

/-- The frontier with one more entry. -/
def push (h : Frontier) (e : Entry) : Frontier :=
  merge (node 1 e empty empty) h

/-- The least entry, and the frontier without it. -/
def pop : Frontier → Option (Entry × Frontier)
  | empty => none
  | node _ e l r => some (e, merge l r)

/-! ### What the operations do to the entries -/

theorem toList_join (e : Entry) (a b : Frontier) :
    (join e a b).toList.Perm (e :: (a.toList ++ b.toList)) := by
  unfold join
  split
  · simpa [toList] using List.perm_append_comm
  · simp [toList]

/-- Merging keeps the entries of both heaps. -/
theorem toList_merge (a b : Frontier) : (merge a b).toList.Perm (a.toList ++ b.toList) := by
  fun_induction merge a b with
  | case1 b => simp [toList]
  | case2 a _ => simp [toList]
  | case3 r e la ra s f lb rb _ ih =>
    refine (toList_join f lb _).trans ?_
    refine ((ih.append_left lb.toList).cons f).trans ?_
    exact ((List.perm_append_comm_assoc ..).cons f).trans List.perm_middle.symm
  | case4 r e la ra s f lb rb _ ih =>
    refine (toList_join e la _).trans ?_
    refine ((ih.append_left la.toList).cons e).trans ?_
    simp [toList]

/-- Pushing adds the entry and nothing else. -/
theorem toList_push (h : Frontier) (e : Entry) : (h.push e).toList.Perm (e :: h.toList) := by
  simpa [push, toList] using toList_merge (node 1 e empty empty) h

/-- Popping takes the entry away and nothing else. -/
theorem toList_of_pop {h rest : Frontier} {e : Entry} (hp : h.pop = some (e, rest)) :
    h.toList.Perm (e :: rest.toList) := by
  cases h with
  | empty => cases hp
  | node r f l r' =>
    cases hp
    exact ((toList_merge l r').cons e).symm

/-- The size is the number of entries. -/
theorem length_toList (h : Frontier) : h.toList.length = h.size := by
  induction h with
  | empty => rfl
  | node _ _ l r ihl ihr => simp [toList, size, ihl, ihr]

/-- Popping makes the frontier smaller. -/
theorem size_of_pop {h rest : Frontier} {e : Entry} (hp : h.pop = some (e, rest)) :
    rest.size + 1 = h.size := by
  rw [← length_toList h, (toList_of_pop hp).length_eq, List.length_cons, length_toList]

end Frontier

end ScriptedMaze.Route
