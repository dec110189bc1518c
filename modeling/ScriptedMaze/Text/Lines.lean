/-!
# Line ends

Two rules for where a line ends are in use, and they differ on purpose.

* In a *script* a line ends at a line feed, a carriage return, or the pair of
  them: `Text.unifyLineEnds` turns each of the three into one line feed, and
  every later stage counts line feeds only.
* A *maze file* is split at every character that ends a line anywhere in
  Unicode (`Text.endsLine`): the form feed and the separator controls split it
  too. `Text.linesOf` gives the lines, and a file that ends with a line end has
  no empty line after it.

`Text.pieces` splits at one given character and keeps empty pieces.
-/

namespace ScriptedMaze.Text

/-- The line ends `"\r\n"`, `"\r"` and `"\n"` all become `"\n"`. -/
def unifyLineEnds : List Char → List Char
  | '\r' :: '\n' :: r => '\n' :: unifyLineEnds r
  | '\r' :: r => '\n' :: unifyLineEnds r
  | c :: r => c :: unifyLineEnds r
  | [] => []

/-- The pair `"\r\n"` becomes `"\n"`; a carriage return alone is kept. -/
def joinLineEndPairs : List Char → List Char
  | '\r' :: '\n' :: r => '\n' :: joinLineEndPairs r
  | c :: r => c :: joinLineEndPairs r
  | [] => []

/-- The pieces of a text between the occurrences of a character, the empty ones
included; there is always one piece more than there are occurrences. -/
def pieces (sep : Char) : List Char → List (List Char)
  | [] => [[]]
  | c :: r =>
    if c = sep then [] :: pieces sep r
    else
      match pieces sep r with
      | [] => [[c]]
      | p :: ps => (c :: p) :: ps

/-- The characters that end a line of a file. -/
def endsLine (c : Char) : Bool :=
  let n := c.toNat
  (0x0A ≤ n && n ≤ 0x0D) || (0x1C ≤ n && n ≤ 0x1E) || n == 0x85 || n == 0x2028 || n == 0x2029

/-- The lines of a text, `line` (reversed) being what has been read of the
current one. -/
def linesFrom (line : List Char) : List Char → List (List Char)
  | [] => if line.isEmpty then [] else [line.reverse]
  | '\r' :: '\n' :: r => line.reverse :: linesFrom [] r
  | c :: r => if endsLine c then line.reverse :: linesFrom [] r else linesFrom (c :: line) r

/-- The lines of a text without their line ends. -/
def linesOf (s : String) : List String :=
  (linesFrom [] s.toList).map String.ofList

/-- After unification no carriage return is left. -/
theorem not_mem_unifyLineEnds (cs : List Char) : '\r' ∉ unifyLineEnds cs := by
  fun_induction unifyLineEnds cs with
  | case1 r ih => simp [ih]
  | case2 r _ ih => simp [ih]
  | case3 c r h₁ h₂ ih =>
    simp only [List.mem_cons, not_or]
    exact ⟨fun hc => h₂ hc.symm, ih⟩
  | case4 => simp

end ScriptedMaze.Text
