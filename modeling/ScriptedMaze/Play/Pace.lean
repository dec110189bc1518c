import ScriptedMaze.Play.Run

/-!
# Runs at a pace

A run may be slowed down: a wait is laid around it, and a wait around that. The
wait that belongs to a step comes at the beginning of the next request, so that
whoever asks can show the step first. The outermost wait comes first, and a wait
that was laid around a run later owes nothing for the steps before.

`Play.drain` asks for all steps of a run. A run makes no more steps than it has
moves left (`Run.movesLeft`), which is why there is an end to it.
-/

namespace ScriptedMaze

/-- A wait after every step of a run. -/
structure Pace where
  /-- The seconds to wait; no wait if they are not positive. -/
  seconds : Float
  /-- Whether a step has been made that is not waited for yet. -/
  owed : Bool := false

/-- A run with the waits that were laid around it, the outermost first. -/
structure PacedRun where
  run : Run
  paces : List Pace := []

namespace PacedRun

/-- Lays a wait around a run. -/
def slowed (p : PacedRun) (seconds : Float) : PacedRun :=
  { p with paces := ⟨seconds, false⟩ :: p.paces }

/-- What is left of a run that has ended. -/
def ended : PacedRun := ⟨.ended, []⟩

/-- The moves that are left, if nothing ends the run before. -/
def movesLeft (limits : Script.Limits) (p : PacedRun) : Nat := p.run.movesLeft limits

end PacedRun

namespace Play

variable {σ : Type}

/-- Waits for the step that a pace owes. That the system can wait so long is
taken for granted here, and looked at where a pace comes from outside
(`Terminal.Delay.seconds?`). -/
def await (tell : Listener σ) (p : Pace) : Play σ Unit := do
  if p.owed && 0.0 < p.seconds then tell (.pause p.seconds)

/-- The next step of a run at its pace. -/
def nextPaced (tell : Listener σ) (p : PacedRun) : Play σ (Option Report × PacedRun) := do
  p.paces.forM (await tell)
  match ← next tell p.run with
  | (some res, run) => return (some res, ⟨run, p.paces.map fun q => { q with owed := true }⟩)
  | (none, _) => return (none, .ended)

/-- The next `n` steps of a run, or all of them if there are fewer; `seen` is
done after each. -/
def take (tell : Listener σ) (seen : Report → Play σ Unit) :
    (n : Nat) → PacedRun → Play σ (List Report)
  | 0, _ => return []
  | n + 1, p => do
    match ← nextPaced tell p with
    | (none, _) => return []
    | (some res, p) =>
      seen res
      return res :: (← take tell seen n p)

/-- All steps of a run, up to its end. A run makes no more steps than it has
moves left, and ends with the request after the last. -/
def drain (tell : Listener σ) (p : PacedRun) (seen : Report → Play σ Unit := fun _ => pure ()) :
    Play σ (List Report) := do
  take tell seen (p.movesLeft (← game).rules.limits + 1) p

end Play

end ScriptedMaze
