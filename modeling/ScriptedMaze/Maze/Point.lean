/-!
# Points and directions

A maze is drawn row by row, the first row at the top: a point has a column `x`,
which grows to the right, and a row `y`, which grows downwards. Both are
integers, so that a robot at the border has a neighbour outside, and a point
can lie anywhere at all.

A robot moves in one of four directions, one point at a time
(`Point.toward`). Each direction has a name, a letter, and the call by which a
script asks for the move.
-/

namespace ScriptedMaze

/-- A column and a row. -/
structure Point where
  x : Int
  y : Int
deriving DecidableEq, Hashable, Repr, Inhabited

/-- The four ways a robot can move. -/
inductive Direction where
  | up
  | down
  | left
  | right
deriving DecidableEq, Hashable, Repr, Inhabited

namespace Direction

/-- The four directions, in the order in which they are tried. -/
def all : List Direction := [up, down, left, right]

/-- The name of a direction, in lower case. -/
def name : Direction → String
  | up => "up"
  | down => "down"
  | left => "left"
  | right => "right"

/-- The name of a direction as it stands inside a call. -/
def calledName : Direction → String
  | up => "Up"
  | down => "Down"
  | left => "Left"
  | right => "Right"

/-- The call by which a script asks for a move, such as `moveUp()`. -/
def call (d : Direction) : String :=
  "move" ++ d.calledName ++ "()"

/-- The first letter of a direction's name, in upper case. -/
def letter : Direction → Char
  | up => 'U'
  | down => 'D'
  | left => 'L'
  | right => 'R'

/-- The column step of a move. -/
def dx : Direction → Int
  | up => 0
  | down => 0
  | left => -1
  | right => 1

/-- The row step of a move. -/
def dy : Direction → Int
  | up => -1
  | down => 1
  | left => 0
  | right => 0

/-- Every direction is one of the four. -/
theorem mem_all (d : Direction) : d ∈ all := by
  cases d <;> decide

/-- The direction with a given name. -/
def ofName? (s : String) : Option Direction :=
  all.find? (·.name = s)

/-- The direction that a given call asks for. -/
def ofCall? (s : String) : Option Direction :=
  all.find? (·.call = s)

end Direction

namespace Point

/-- The point at a given distance in either coordinate. -/
def shift (p : Point) (dx dy : Int) : Point := ⟨p.x + dx, p.y + dy⟩

/-- The neighbour of a point in a direction. -/
def toward (p : Point) (d : Direction) : Point := p.shift d.dx d.dy

/-- The number of moves between two points where nothing is in the way. -/
def distance (p q : Point) : Nat := (p.x - q.x).natAbs + (p.y - q.y).natAbs

/-- A point in round brackets, such as `(1, 2)`. -/
def shown (p : Point) : String :=
  "(" ++ toString p.x ++ ", " ++ toString p.y ++ ")"

/-- A move changes the distance to any point by at most one. -/
theorem distance_toward_le (p q : Point) (d : Direction) :
    p.distance q ≤ (p.toward d).distance q + 1 := by
  cases d <;> simp only [distance, toward, shift, Direction.dx, Direction.dy] <;> omega

end Point

end ScriptedMaze
