import ScriptedMaze.Play.Console
import ScriptedMaze.Play.Pace

/-!
# Sittings

A **sitting** is a game at a table, together with the runs that were opened
there. A run is opened under a name, by which it is asked for its steps, slowed
down or given up; in between anything else may be done to the game, and any
number of runs may be open at once. An `Operation` is what can be asked for, and
`Sitting.perform` does it.

A run that has ended keeps its name, and so does one that failed, which has
ended as well. If another run is opened under the name, it takes the place of
the first, which is left as it is: a run that nobody asks for a step does
nothing.

A sitting is as the operation leaves it also where the operation fails.
-/

namespace ScriptedMaze

/-- What can be asked for in a sitting. -/
inductive Operation where
  /-- A single move, outside of a run. -/
  | step (a : Action)
  /-- To open a run in batch mode under a name. -/
  | openBatch (name source : String)
  /-- To open a run in live mode under a name. -/
  | openLive (name source : String)
  /-- The next step of a run. -/
  | next (name : String)
  /-- All steps of a run. -/
  | drain (name : String)
  /-- To give up a run. -/
  | close (name : String)
  /-- A wait after every step of a run. -/
  | slow (name : String) (seconds : Float)
  | cancel
  | reset
  | setDifficulty (preset : String)
  | solution

/-- What comes of an operation. -/
inductive Reply where
  /-- It is done. -/
  | done
  /-- What became of a move. -/
  | report (r : Report)
  /-- What became of the next move of a run, if there was one. -/
  | next (r : Option Report)
  /-- What became of the moves of a run. -/
  | reports (rs : List Report)
  /-- A script that reaches the flag, if there is one. -/
  | solution (script : Option String)
deriving DecidableEq, Repr

/-- Why an operation fails. -/
inductive SittingFault where
  | game (f : GameFault)
  /-- No run was opened under the name. -/
  | noSuchRun
deriving DecidableEq, Repr

/-- A game at a table, and the runs that were opened there. -/
structure Sitting (σ : Type) where
  table : Table σ
  runs : List (String × PacedRun) := []

namespace Sitting

variable {σ : Type}

/-- What came of an operation, and the sitting as it leaves it. -/
abbrev Result (σ : Type) := Except SittingFault Reply × Sitting σ

/-- The run of a given name. -/
def run? (s : Sitting σ) (name : String) : Option PacedRun :=
  s.runs.lookup name

/-- Puts a run under a name. -/
def put (s : Sitting σ) (name : String) (p : PacedRun) : Sitting σ :=
  { s with runs := (name, p) :: s.runs.filter (·.1 ≠ name) }

/-- A run is found under the name it was put under, and every other run as
before. -/
theorem run?_put (s : Sitting σ) (name other : String) (p : PacedRun) :
    (s.put name p).run? other = if other = name then some p else s.run? other := by
  unfold run? put
  dsimp only
  rw [List.lookup_cons]
  by_cases h : other = name
  · rw [if_pos h, h, beq_self_eq_true]
  · rw [if_neg h, beq_false_of_ne h]
    -- the runs that are left out are those under the name itself
    induction s.runs with
    | nil => rfl
    | cons q rest ih =>
      obtain ⟨n, r⟩ := q
      by_cases hn : n = name
      · have hne : (other == name) = false := beq_false_of_ne h
        simpa [List.lookup_cons, hn, hne] using ih
      · simp only [List.filter_cons, ne_eq, hn, not_false_eq_true, decide_true, if_true,
          List.lookup_cons]
        cases other == n
        · exact ih
        · rfl

/-- Does something at the table. -/
def play {α : Type} (s : Sitting σ) (act : Play σ α) : Except GameFault α × Sitting σ :=
  let (result, table) := act.on s.table
  (result, { s with table })

/-- Does something at the table that concerns no run. -/
def only {α : Type} (s : Sitting σ) (act : Play σ α) (reply : α → Reply) : Result σ :=
  match s.play act with
  | (.ok a, s) => (.ok (reply a), s)
  | (.error f, s) => (.error (.game f), s)

/-- Opens a run under a name. -/
def openRun (s : Sitting σ) (name : String) (act : Play σ Run) : Result σ :=
  match s.play act with
  | (.ok run, s) => (.ok .done, s.put name ⟨run, []⟩)
  | (.error f, s) => (.error (.game f), s)

/-- Does something for the run of a given name, and puts what is left of the run
under the name. A run that fails has ended. -/
def withRun {α : Type} (s : Sitting σ) (name : String) (act : PacedRun → Play σ (α × PacedRun))
    (reply : α → Reply) : Result σ :=
  match s.run? name with
  | none => (.error .noSuchRun, s)
  | some p =>
    match s.play (act p) with
    | (.ok (a, p), s) => (.ok (reply a), s.put name p)
    | (.error f, s) => (.error (.game f), s.put name .ended)

/-- Does what is asked for. -/
def perform (tell : Listener σ) (s : Sitting σ) : Operation → Result σ
  | .step a => s.only (Play.step tell a) .report
  | .openBatch name source => s.openRun name (Play.openBatch tell source)
  | .openLive name source => s.openRun name (Play.openLive tell source)
  | .next name => s.withRun name (Play.nextPaced tell) .next
  | .drain name =>
    s.withRun name (fun p => do return (← Play.drain tell p, .ended)) .reports
  | .close name =>
    s.withRun name (fun p => do return (← Play.close p.run, .ended)) fun _ => .done
  | .slow name seconds =>
    s.withRun name (fun p => return ((), p.slowed seconds)) fun _ => .done
  | .cancel => s.only Play.cancel fun _ => .done
  | .reset => s.only (Play.reset tell) fun _ => .done
  | .setDifficulty preset => s.only (Play.setDifficulty tell preset) fun _ => .done
  | .solution => s.only (Play.solution tell) .solution

/-- Does what is asked for, one thing after the other. -/
def performAll (tell : Listener σ) (s : Sitting σ) :
    List Operation → List (Except SittingFault Reply) × Sitting σ
  | [] => ([], s)
  | o :: rest =>
    let (reply, s) := s.perform tell o
    let (more, s) := s.performAll tell rest
    (reply :: more, s)

end Sitting

end ScriptedMaze
