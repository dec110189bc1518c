import Std.Data.HashMap
import ScriptedMaze.Route.Frontier

/-!
# The shortest way to a flag

`World.route?` looks for a shortest list of moves that finishes a world. It goes
on from the world with the least *estimate* first: the moves that led to it, and
the distance from it to the nearest flag as if nothing were in the way
(`World.flagDistance`). Neither keys nor doors move a flag, and a move comes
closer by at most one point, so that the estimate never exceeds what the way
really takes.

## The search

For every world that was come upon the search knows the fewest moves that are
known to lead to it (its *score*), and the world and move by which they do (its
*origin*). A world is entered into the frontier each time its score drops; an
entry whose cost is no longer the score of its world is out of date and dropped.
To go on from a world counts against a budget, and a search that has gone on
from more worlds than the budget allows gives up. A finished world is the end of
the search whatever is left of the budget.

The way to a world is read off the origins, back from the world
(`Search.trail`); it takes as many moves as the world's score.

A round (`Search.round`) takes the first entry off the frontier. It either goes
on from a world, which uses up the budget, or only drops the entry; that is why
the search ends (`Search.measure_of_round`).
-/

namespace ScriptedMaze

namespace Route

/-- A move of a route, and the point that it reaches. -/
structure Step where
  direction : Direction
  reached : Point
deriving DecidableEq, Repr

namespace Step

/-- The step in words, such as `moveUp() to (1, 2)`. -/
def description (s : Step) : String :=
  s.direction.call ++ " to " ++ s.reached.shown

end Step

end Route

namespace World

/-- The distance from a point to the nearest flag if nothing were in the way; 0
where there is no flag. -/
def flagDistance (w : World) (p : Point) : Nat :=
  ((w.grid.places .flag).map p.distance).min?.getD 0

end World

namespace Route

open Std (HashMap)

/-- What a search knows. -/
structure Search where
  frontier : Frontier
  /-- The fewest moves that are known to lead to a world. -/
  score : HashMap World Nat
  /-- The world and the move by which they do. -/
  origin : HashMap World (World × Step)
  /-- The number of entries made so far. -/
  entries : Nat
  /-- The number of worlds gone on from so far. -/
  expanded : Nat

namespace Search

/-- The score of a world that was not come upon: more moves than any search
makes. -/
def unreached : Nat := 1000000000

/-- The score of a world. -/
def scoreOf (s : Search) (w : World) : Nat := s.score.getD w unreached

/-- The search before its first round. -/
def start (w : World) : Search where
  frontier := Frontier.empty.push ⟨w.flagDistance w.robot, 0, 0, w⟩
  score := (∅ : HashMap World Nat).insert w 0
  origin := ∅
  entries := 1
  expanded := 0

/-! ### Going on from a world -/

/-- Notes that `cost` moves lead to a world, the last of them from `previous`. -/
def discover (s : Search) (previous : World) (d : Direction) (next : World) (cost : Nat) :
    Search :=
  { s with
    frontier := s.frontier.push ⟨cost + next.flagDistance next.robot, cost, s.entries, next⟩
    score := s.score.insert next cost
    origin := s.origin.insert next (previous, ⟨d, next.robot⟩)
    entries := s.entries + 1 }

/-- Tries one move from a world that `cost` moves lead to. -/
def tryMove (w : World) (cost : Nat) (s : Search) (d : Direction) : Search :=
  match w.move d with
  | (_, .blocked) => s
  | (next, .moved _) => if cost + 1 < s.scoreOf next then s.discover w d next (cost + 1) else s

/-- Goes on from a world that `cost` moves lead to. -/
def goOn (s : Search) (w : World) (cost : Nat) : Search :=
  Direction.all.foldl (tryMove w cost) { s with expanded := s.expanded + 1 }

@[simp]
theorem expanded_tryMove (w : World) (cost : Nat) (s : Search) (d : Direction) :
    (tryMove w cost s d).expanded = s.expanded := by
  unfold tryMove
  split
  · rfl
  · split <;> rfl

theorem expanded_foldl_tryMove (w : World) (cost : Nat) (s : Search) (ds : List Direction) :
    (ds.foldl (tryMove w cost) s).expanded = s.expanded := by
  induction ds generalizing s with
  | nil => rfl
  | cons d ds ih => rw [List.foldl_cons, ih, expanded_tryMove]

/-- To go on from a world counts once. -/
theorem expanded_goOn (s : Search) (w : World) (cost : Nat) :
    (s.goOn w cost).expanded = s.expanded + 1 :=
  expanded_foldl_tryMove w cost _ _

/-! ### The way that was found -/

/-- The moves that lead to a world, followed back for at most `n` moves, in
front of `later` ones. -/
def trail (origin : HashMap World (World × Step)) : (n : Nat) → World → List Step → List Step
  | 0, _, later => later
  | n + 1, w, later =>
    match origin[w]? with
    | none => later
    | some (previous, step) => trail origin n previous (step :: later)

/-! ### Rounds -/

/-- What one round of a search comes to. -/
inductive Round where
  /-- Nothing is left to go on from. -/
  | exhausted
  /-- A finished world has been come upon. -/
  | found (way : List Step)
  /-- There are worlds to go on from, and the budget is used up. -/
  | gaveUp
  | goesOn (s : Search)

/-- One round of a search that may go on from one world more than `budget`. -/
def round (budget : Int) (s : Search) : Round :=
  match s.frontier.pop with
  | none => .exhausted
  | some (e, rest) =>
    if e.cost ≠ s.scoreOf e.world then .goesOn { s with frontier := rest }
    else if e.world.finished then .found (trail s.origin e.cost e.world [])
    else if budget < s.expanded then .gaveUp
    else .goesOn ({ s with frontier := rest }.goOn e.world e.cost)

/-- What a search still may do: the worlds it may go on from, and the entries it
may drop. -/
def measure (budget : Int) (s : Search) : Nat × Nat :=
  ((budget + 1 - s.expanded).toNat, s.frontier.size)

/-- A round leaves less to do than there was before it. -/
theorem measure_of_round {budget : Int} {s s' : Search} (h : s.round budget = .goesOn s') :
    Prod.Lex (· < ·) (· < ·) (s'.measure budget) (s.measure budget) := by
  unfold round at h
  split at h
  · cases h
  · rename_i e rest hp
    split at h
    · cases h
      refine Prod.Lex.right _ ?_
      have := Frontier.size_of_pop hp
      dsimp only
      omega
    split at h
    · cases h
    split at h
    · cases h
    · rename_i hb
      cases h
      refine Prod.Lex.left _ _ ?_
      rw [expanded_goOn]
      dsimp only
      omega

/-- The rounds of a search to its end: the way that it finds. -/
def run (budget : Int) (s : Search) : Option (List Step) :=
  match _round : s.round budget with
  | .exhausted => none
  | .found way => some way
  | .gaveUp => none
  | .goesOn s' => run budget s'
termination_by s.measure budget
decreasing_by exact measure_of_round _round

end Search

end Route

namespace World

/-- A shortest way to a flag, if there is one and the search does not give up
before. -/
def route? (w : World) (budget : Int := 200000) : Option (List Route.Step) :=
  if w.finished then some [] else (Route.Search.start w).run budget

end World

end ScriptedMaze
