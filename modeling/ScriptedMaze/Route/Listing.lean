import ScriptedMaze.Route.Search

/-!
# Moves as a script

A list of moves is shown in two ways. Both take the stretches of equal moves
together (`Route.runs`).

* As a script that makes the moves (`Route.script`), one line for each stretch:
  the call itself for a single move, and a loop for more. A loop may have only so
  many rounds; a longer stretch is cut into full loops and a last line for what
  is left. Where loops may have no round at all, the stretch is not cut.
* As letters (`Route.letters`), such as `RRR | L | DDDD`.
-/

namespace ScriptedMaze.Route

/-- The stretches of equal moves, with their lengths. -/
def runs : List Direction → List (Direction × Nat)
  | [] => []
  | d :: ds =>
    match runs ds with
    | [] => [(d, 1)]
    | (e, n) :: rest => if d = e then (e, n + 1) :: rest else (d, 1) :: (e, n) :: rest

/-- The stretches one after the other are the moves. -/
theorem flatMap_runs (ds : List Direction) :
    (runs ds).flatMap (fun (d, n) => List.replicate n d) = ds := by
  induction ds with
  | nil => rfl
  | cons d ds ih =>
    unfold runs
    split
    · rename_i h
      rw [h] at ih
      simpa using ih
    · rename_i e n rest h
      rw [h] at ih
      split
      · rename_i hde
        subst hde
        simpa [List.replicate_succ] using ih
      · simpa using ih

/-- A length cut into pieces of a given size and a last, smaller one. A size of
zero takes nothing away from a length, which is then left as it is. -/
def cutLength (size n : Nat) : List Nat :=
  List.replicate (n / size) size ++ if n % size = 0 then [] else [n % size]

/-- The line of a script that makes a move so many times. -/
def scriptLine (d : Direction) (n : Nat) : String :=
  if n = 1 then d.call ++ ";"
  else "for (let i = 0; i < " ++ toString n ++ "; i++) " ++ d.call ++ ";"

/-- A script that makes the moves, with at most `bound` rounds a loop. At a bound
below one it is not what the game writes, which has no end. -/
def script (bound : Int) (ds : List Direction) : String :=
  "\n".intercalate ((runs ds).flatMap fun (d, n) => (cutLength bound.toNat n).map (scriptLine d))

/-- The moves as letters, stretch by stretch. -/
def letters (ds : List Direction) : String :=
  " | ".intercalate ((runs ds).map fun (d, n) => String.ofList (List.replicate n d.letter))

/-- Equal pieces one after the other. -/
theorem foldr_replicate_add (k size last : Nat) :
    (List.replicate k size).foldr (· + ·) last = k * size + last := by
  induction k with
  | zero => simp
  | succ k ih => rw [List.replicate_succ, List.foldr_cons, ih, Nat.succ_mul]; omega

/-- The pieces of a length add up to it. -/
theorem foldr_cutLength (size n : Nat) : (cutLength size n).foldr (· + ·) 0 = n := by
  have h := Nat.div_add_mod n size
  have hc := Nat.mul_comm size (n / size)
  unfold cutLength
  rw [List.foldr_append]
  split
  · rename_i h0
    rw [List.foldr_nil, foldr_replicate_add]
    omega
  · rw [List.foldr_cons, List.foldr_nil, foldr_replicate_add]
    omega

end ScriptedMaze.Route
