import ScriptedMaze.Script.Forbidden
import ScriptedMaze.Script.Unrolling
import ScriptedMaze.Text.Lines

/-!
# From a source to its moves

`Script.commands` is the way of a source through all stages. A blank source is
rejected first, then one that contains something forbidden; the source is cut
into tokens, the tokens are read as a tree, the tree is unrolled, and the number
of moves is looked at last. Whatever fails first decides the fault.

`Script.lineCommands` is for a source that is given line by line: a blank line
is no fault there, it asks for nothing.
-/

namespace ScriptedMaze.Script

/-- What a script is allowed. -/
structure Limits where
  /-- The most rounds of a loop. -/
  bound : Int := 20
  /-- The most braced loops, open at once or come upon while unrolling. -/
  expansions : Int := 20
  /-- The most moves. -/
  moves : Int := 100
deriving DecidableEq, Repr

/-- The tokens of a source; the three ways to end a line count alike. -/
def tokens (source : String) : List Token :=
  Token.scanFrom {} (Text.unifyLineEnds source.toList)

/-- The tree of a source. -/
def tree (limits : Limits) (source : String) : Except Fault (List Node) :=
  Tree.ofTokens limits.bound limits.expansions (tokens source)

/-- The moves that a source asks for. -/
def commands (limits : Limits) (source : String) : Except Fault (List Direction) := do
  if Text.blank source then throw .emptyProgram
  checkAllowed source
  let nodes ← tree limits source
  let ds ← Tree.unroll limits.expansions nodes
  if limits.moves < ds.length then throw (.tooManyMoves ds.length limits.moves)
  return ds

/-- The moves that one line asks for. -/
def lineCommands (limits : Limits) (line : String) : Except Fault (List Direction) :=
  if Text.blank line then .ok [] else commands limits line

/-- Moves in words. -/
def describe (ds : List Direction) : String :=
  if ds.isEmpty then "[none]" else " -> ".intercalate (ds.map Direction.name)

end ScriptedMaze.Script
