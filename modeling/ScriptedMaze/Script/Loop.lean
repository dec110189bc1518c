import ScriptedMaze.Script.Fault
import ScriptedMaze.Script.Node
import ScriptedMaze.Script.Token

/-!
# The parts of a loop

A loop is the word `for` followed by `(`. Its header has to be spelled exactly

    for (let i = 0; i < 3; i++)

but for the number of rounds, which has one or two digits. A body without braces
is made of the moves up to the next `;`, brace or end of line, and can hold no
loop; a body in braces is read with the rest of the tree.

Every function here takes something from the front of the tokens and gives the
rest, and the lemma beside it says how much shorter the rest is.
-/

namespace ScriptedMaze.Script.Loop

/-- Whether the tokens begin with a loop. -/
def atLoop : List Token → Bool
  | t :: u :: _ => t.lexeme = .word "for" && u.lexeme = .openParen
  | _ => false

/-! ### The header -/

/-- The header of a loop up to the number of rounds. -/
def headerOpening : List Lexeme :=
  [.openParen, .word "let", .word "i", .assign, .number "0", .semicolon, .word "i", .less]

/-- The header of a loop from the number of rounds on. -/
def headerClosing : List Lexeme :=
  [.semicolon, .word "i", .increment, .closeParen]

/-- The tokens after given lexemes, if the tokens begin with these. -/
def dropLexemes : List Lexeme → List Token → Option (List Token)
  | [], ts => some ts
  | _ :: _, [] => none
  | k :: ks, t :: ts => if t.lexeme = k then dropLexemes ks ts else none

/-- The value of a number literal. -/
def numberValue (digits : String) : Nat :=
  digits.toList.foldl (fun n c => 10 * n + (c.toNat - '0'.toNat)) 0

/-- The number of rounds that a header asks for, and the tokens after it. -/
def takeHeader (ts : List Token) : Option (Nat × List Token) :=
  match dropLexemes headerOpening ts with
  | some (⟨.number digits, _, _⟩ :: ts) =>
    if digits.length ≤ 2 then (dropLexemes headerClosing ts).map (numberValue digits, ·) else none
  | _ => none

theorem length_dropLexemes {ks : List Lexeme} {ts rest : List Token}
    (h : dropLexemes ks ts = some rest) : rest.length + ks.length = ts.length := by
  fun_induction dropLexemes ks ts with
  | case1 => cases h; simp
  | case2 => cases h
  | case3 ks t ts ih => simp only [List.length_cons]; have := ih h; omega
  | case4 => cases h

/-- A header takes thirteen tokens. -/
theorem length_takeHeader {ts rest : List Token} {n : Nat}
    (h : takeHeader ts = some (n, rest)) : rest.length + 13 = ts.length := by
  unfold takeHeader at h
  split at h
  · rename_i digits _ _ ts' hd
    split at h
    · obtain ⟨r, hr, he⟩ := Option.map_eq_some_iff.mp h
      cases he
      have h₁ := length_dropLexemes hd
      have h₂ := length_dropLexemes hr
      simp only [headerOpening, headerClosing, List.length_cons, List.length_nil] at h₁ h₂
      omega
    · cases h
  · cases h

/-! ### A body without braces -/

/-- The moves on one line, and the tokens from which the reading goes on.
`inBlock` tells whether a brace is open around the loop, and `loopLine` is the
line on which the loop begins. -/
def takeLine (line loopLine : Nat) (inBlock : Bool) :
    List Token → Except Fault (List Node × List Token)
  | [] => .ok ([], [])
  | t :: ts =>
    if t.lexeme = .finish ∨ t.lexeme = .openBrace ∨ t.line ≠ line then .ok ([], t :: ts)
    else if t.lexeme = .semicolon then .ok ([], ts)
    else if t.lexeme = .closeBrace then
      if inBlock then .ok ([], t :: ts) else .error (.bodyCutOff loopLine)
    else if atLoop (t :: ts) then .error (.nestedWithoutBraces t.line)
    else
      match takeLine line loopLine inBlock ts with
      | .error e => .error e
      | .ok (nodes, rest) =>
        match t.lexeme with
        | .move d => .ok (.move d t.line :: nodes, rest)
        | _ => .ok (nodes, rest)

theorem length_takeLine_le {line loopLine : Nat} {inBlock : Bool} {ts rest : List Token}
    {nodes : List Node} (h : takeLine line loopLine inBlock ts = .ok (nodes, rest)) :
    rest.length ≤ ts.length := by
  induction ts generalizing nodes rest with
  | nil => cases h; simp
  | cons t ts ih =>
    unfold takeLine at h
    split at h
    · cases h; simp
    split at h
    · cases h; simp
    split at h
    · split at h
      · cases h; simp
      · cases h
    split at h
    · cases h
    split at h
    · cases h
    · rename_i hr
      have := ih hr
      split at h <;> cases h <;> simp only [List.length_cons] <;> omega

/-- The body of a loop without braces. -/
def takeBody (loopLine : Nat) (inBlock : Bool) :
    List Token → Except Fault (List Node × List Token)
  | [] => .error (.noBody loopLine)
  | t :: ts =>
    if t.lexeme = .finish then .error (.noBody loopLine)
    else takeLine t.line loopLine inBlock (t :: ts)

theorem length_takeBody_le {loopLine : Nat} {inBlock : Bool} {ts rest : List Token}
    {nodes : List Node} (h : takeBody loopLine inBlock ts = .ok (nodes, rest)) :
    rest.length ≤ ts.length := by
  unfold takeBody at h
  split at h
  · cases h
  · split at h
    · cases h
    · exact length_takeLine_le h

end ScriptedMaze.Script.Loop
