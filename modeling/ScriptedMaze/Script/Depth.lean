import ScriptedMaze.Script.Commands

/-!
# Scripts that go too deep

Every braced loop that is open takes up room while a script is read, and there is
room for `Script.deepest` of them. The limits keep a script far below that unless
they are raised. Where they are, and a script opens more loops at once, its
reading breaks off: there is neither a tree nor a fault (`Script.breaksOff`).

What stands in front of the loop that is too deep is read before it, so that a
fault that is found there is reported as usual.

Neither `Tree.ofTokens` nor `Script.commands` knows of the room: they say what comes
of a script if there is enough of it. Whoever reads a script as a whole goes through
`Script.commands?`, which gives nothing where the reading breaks off.
-/

namespace ScriptedMaze.Script

/-- The most braced loops that there is room for at once. -/
def deepest : Int := 328

/-- Whether a reading of tokens breaks off. -/
def tokensBreakOff (maxBound maxDepth : Int) (ts : List Token) : Bool :=
  decide (deepest < maxDepth) &&
    match Tree.ofTokens maxBound deepest ts with
    | .error (.tooMuchExpansion _) => true
    | _ => false

/-- Whether the reading of a source breaks off. One that is rejected for its words
is not read so far. -/
def breaksOff (limits : Limits) (source : String) : Bool :=
  !Text.blank source && (checkAllowed source).toBool &&
    tokensBreakOff limits.bound limits.expansions (tokens source)

/-- The moves that a source asks for, or why it is rejected; nothing if its reading
breaks off. -/
def commands? (limits : Limits) (source : String) : Option (Except Fault (List Direction)) :=
  if breaksOff limits source then none else some (commands limits source)

/-- A reading that comes to its end is the one for which there is always room. -/
theorem commands_of_commands? {limits : Limits} {source : String}
    {result : Except Fault (List Direction)} (h : commands? limits source = some result) :
    commands limits source = result := by
  unfold commands? at h
  split at h
  · cases h
  · exact Option.some.inj h

end ScriptedMaze.Script
