import ScriptedMaze.Play.Start

/-!
# Listeners that call back

A listener may call on the game it listens to. An **alarm** is the smallest such
listener: at one notice of one sort it makes one call, and never again. A
`Journal` is a listener that writes down every notice and has any number of
alarms.

At a notice the journal goes through its alarms in order. Each alarm for that
sort of notice counts down, and one that comes to zero rings: the call is
written down and made, and the notices that arise on the way count for the
alarms as well. A call that fails makes the notice fail.

A call within a call uses up an alarm each time, so that calls can only be
nested as deep as there are alarms left (`Journal.armed`): this is the depth to
which `Journal.hearAt` goes.
-/

namespace ScriptedMaze

/-- The sorts of notice that an alarm can wait for. -/
inductive Channel where
  | cell
  | robot
  | status
  | debug
deriving DecidableEq, Repr

/-- The sort of a notice; a pause is of none. -/
def Notice.channel? : Notice → Option Channel
  | cell _ => some .cell
  | robot _ => some .robot
  | status _ => some .status
  | debug _ => some .debug
  | pause _ => none

/-- What an alarm does. -/
inductive Call where
  | cancel
  | reset
  | setDifficulty (name : String)
deriving DecidableEq, Repr

/-- A call that is made at the `left`-th notice of a sort from now; an alarm
with none left has rung. -/
structure Alarm where
  channel : Channel
  left : Nat
  call : Call
deriving DecidableEq, Repr

/-- What a journal writes down. -/
inductive Record where
  | heard (n : Notice)
  | rang (c : Call)

/-- What was heard, the latest first, and the alarms. -/
structure Journal where
  records : List Record := []
  alarms : List Alarm := []

namespace Journal

/-- The journal with one more record. -/
def write (j : Journal) (r : Record) : Journal := { j with records := r :: j.records }

/-- The journal with one more alarm, which goes off last. -/
def arm (j : Journal) (a : Alarm) : Journal := { j with alarms := j.alarms ++ [a] }

/-- The alarms that have not rung. -/
def armed (j : Journal) : Nat := j.alarms.countP fun a => a.left ≠ 0

/-- Counts an alarm down for a notice of its sort. If it comes to zero, its call
is given. -/
def countDown (j : Journal) (i : Nat) (channel : Channel) : Journal × Option Call :=
  match j.alarms[i]? with
  | none => (j, none)
  | some a =>
    if a.channel = channel ∧ a.left ≠ 0 then
      ({ j with alarms := j.alarms.set i { a with left := a.left - 1 } },
        if a.left = 1 then some a.call else none)
    else (j, none)

end Journal

/-- Makes the call of an alarm. -/
def Call.make (tell : Listener Journal) : Call → Play Journal Unit
  | cancel => Play.cancel
  | reset => Play.reset tell
  | setDifficulty name => Play.setDifficulty tell name

namespace Journal

/-- Counts an alarm down for a notice of some sort, and lets it ring. -/
def tick (tell : Listener Journal) (channel : Channel) (i : Nat) : Play Journal Unit := do
  let (j, call?) := (← Play.audience).countDown i channel
  Play.modifyAudience fun _ => j
  match call? with
  | none => return
  | some call =>
    Play.modifyAudience (·.write (.rang call))
    call.make tell

/-- Hears a notice, with calls nested at most so deep. -/
def hearAt : (depth : Nat) → Listener Journal
  | 0, n => Play.modifyAudience (·.write (.heard n))
  | depth + 1, n => do
    Play.modifyAudience (·.write (.heard n))
    match n.channel? with
    | none => return
    | some channel =>
      (List.range (← Play.audience).alarms.length).forM (tick (hearAt depth) channel)

/-- Writes down a notice and lets the alarms ring that wait for it. -/
def hear : Listener Journal := fun n => do
  hearAt (← Play.audience).armed n

end Journal

end ScriptedMaze
