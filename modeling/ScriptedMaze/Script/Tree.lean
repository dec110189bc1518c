import ScriptedMaze.Script.Loop

/-!
# Reading the tree of a script

The tokens are gone through once. A **reading** that is under way is made of the
braces that are open, what has been read of the innermost block, and the tokens
to come. One step (`Reading.step`) deals with what comes next:

* an opening brace that follows no loop's header only groups: what it holds
  belongs to the block around it;
* a closing brace closes the innermost brace that is open, and means nothing
  where none is open. A loop's brace remembers what had been read before the
  loop, so that closing it puts the loop behind that;
* a move becomes a leaf;
* a loop is read up to the brace of its body, or as a whole if its body has no
  brace;
* everything else is passed over.

Each step consumes at least one token (`Reading.length_rest_step`), which is why
a reading ends: at the token that stands for the end of the script, or where
there is no more token. There every loop's brace has to be closed.
-/

namespace ScriptedMaze.Script

/-- A brace that is open: one that only groups, or that of a loop, with the
nodes read before the loop, the latest first. -/
inductive OpenBrace where
  | group
  | loop (count line : Nat) (before : List Node)

namespace OpenBrace

/-- The line of the loop whose brace it is. -/
def loopLine? : OpenBrace → Option Nat
  | group => none
  | loop _ line _ => some line

end OpenBrace

/-- A reading that is under way. -/
structure Reading where
  /-- The braces that are open, the innermost first. -/
  braces : List OpenBrace := []
  /-- What has been read of the innermost block, the latest first. -/
  nodes : List Node := []
  /-- The tokens to come. -/
  rest : List Token

namespace Reading

/-- The braced loops that are open. -/
def openLoops (r : Reading) : Nat :=
  (r.braces.filterMap OpenBrace.loopLine?).length

/-! ### Steps -/

/-- Passes a closing brace. -/
def closeBrace (r : Reading) (later : List Token) : Reading :=
  match r.braces with
  | [] => { r with rest := later }
  | .group :: outer => { r with braces := outer, rest := later }
  | .loop count line before :: outer =>
    { braces := outer, nodes := .loop count r.nodes.reverse true line :: before, rest := later }

/-- Reads a loop from behind its header on. -/
def enterBody (maxDepth : Int) (r : Reading) (count line : Nat) (later : List Token) :
    Except Fault Reading :=
  match later with
  | ⟨.openBrace, _, _⟩ :: later =>
    if maxDepth < r.openLoops + 1 then .error (.tooMuchExpansion line)
    else .ok { braces := .loop count line r.nodes :: r.braces, nodes := [], rest := later }
  | later =>
    match Loop.takeBody line (!r.braces.isEmpty) later with
    | .error f => .error f
    | .ok (body, rest) => .ok { r with nodes := .loop count body false line :: r.nodes, rest }

/-- Reads a loop from behind its word on. -/
def enterLoop (maxBound maxDepth : Int) (r : Reading) (line : Nat) (later : List Token) :
    Except Fault Reading :=
  match Loop.takeHeader later with
  | none => .error (.badHeader line)
  | some (count, later) =>
    if maxBound < count then .error (.boundTooLarge maxBound line)
    else r.enterBody maxDepth count line later

/-- Deals with a token that is not the end of the script; `later` are the tokens
behind it. -/
def step (maxBound maxDepth : Int) (r : Reading) (t : Token) (later : List Token) :
    Except Fault Reading :=
  match t.lexeme with
  | .openBrace => .ok { r with braces := .group :: r.braces, rest := later }
  | .closeBrace => .ok (r.closeBrace later)
  | .move d => .ok { r with nodes := .move d t.line :: r.nodes, rest := later }
  | _ =>
    if Loop.atLoop (t :: later) then r.enterLoop maxBound maxDepth t.line later
    else .ok { r with rest := later }

@[simp]
theorem rest_closeBrace (r : Reading) (later : List Token) :
    (r.closeBrace later).rest = later := by
  unfold closeBrace
  split <;> rfl

theorem length_rest_enterBody {maxDepth : Int} {r r' : Reading} {count line : Nat}
    {later : List Token} (h : r.enterBody maxDepth count line later = .ok r') :
    r'.rest.length ≤ later.length := by
  unfold enterBody at h
  split at h
  · split at h
    · cases h
    · cases h
      simp only [List.length_cons]
      omega
  · split at h
    · cases h
    · rename_i hb
      cases h
      exact Loop.length_takeBody_le hb

theorem length_rest_enterLoop {maxBound maxDepth : Int} {r r' : Reading} {line : Nat}
    {later : List Token} (h : r.enterLoop maxBound maxDepth line later = .ok r') :
    r'.rest.length ≤ later.length := by
  unfold enterLoop at h
  split at h
  · cases h
  · rename_i hh
    split at h
    · cases h
    · have h₁ := Loop.length_takeHeader hh
      have h₂ := length_rest_enterBody h
      omega

/-- A step consumes at least the token it deals with. -/
theorem length_rest_step {maxBound maxDepth : Int} {r r' : Reading} {t : Token}
    {later : List Token} (h : r.step maxBound maxDepth t later = .ok r') :
    r'.rest.length ≤ later.length := by
  unfold step at h
  split at h
  · cases h; exact Nat.le_refl _
  · cases h; exact Nat.le_of_eq (congrArg List.length (rest_closeBrace r later))
  · cases h; exact Nat.le_refl _
  · split at h
    · exact length_rest_enterLoop h
    · cases h; exact Nat.le_refl _

/-! ### The whole reading -/

/-- Goes on to the end of the script: the reading as it stands there. -/
def run (maxBound maxDepth : Int) (r : Reading) : Except Fault Reading :=
  match _rest : r.rest with
  | [] => .ok r
  | t :: later =>
    if t.lexeme = .finish then .ok r
    else
      match _step : r.step maxBound maxDepth t later with
      | .error f => .error f
      | .ok r' => run maxBound maxDepth r'
termination_by r.rest.length
decreasing_by
  have := length_rest_step _step
  rw [_rest]
  simp only [List.length_cons]
  omega

/-- What has been read, if the script may end here: a loop whose brace is open
is a fault, and the innermost is reported. -/
def result (r : Reading) : Except Fault (List Node) :=
  match r.braces.findSome? OpenBrace.loopLine? with
  | some line => .error (.neverClosed line)
  | none => .ok r.nodes.reverse

end Reading

namespace Tree

/-- The tree of a script. `maxBound` is the most rounds a loop may have, and
`maxDepth` the most braced loops that may be open at once. -/
def ofTokens (maxBound maxDepth : Int) (ts : List Token) : Except Fault (List Node) :=
  match Reading.run maxBound maxDepth { rest := ts } with
  | .error f => .error f
  | .ok r => r.result

end Tree

end ScriptedMaze.Script
