import ScriptedMaze.Maze.Point
import ScriptedMaze.Text.Blank

/-!
# Tokens

A script is cut into lexemes (`Lexeme`); blank stretches and comments are cut
out and leave nothing. A token is a lexeme with the line and column at which it
starts.

At every place the first of these that fits is taken:

* a comment: `//` up to the end of the line, or `/*` up to the first `*/` after it;
* a stretch of blank characters;
* a move, such as `moveUp()`, spelled exactly so;
* a word: a letter, `_` or `$`, then letters, digits, `_` and `$`;
* a number: digits;
* `++`, or one of the marks `( ) { } ; < =`;
* any other character, alone.

A `/*` that is never closed opens no comment: its two characters are two other
characters. Letters and digits are those of ASCII.

The cutting itself is `Lexeme.take`, which says what stands at the front of a
text and how much of it that is; `Token.scan` repeats it. A place is followed
character by character (`Place.after`), so that a token's line is one more than
the line feeds before it, and its column one more than the characters since the
last of them.
-/

namespace ScriptedMaze

/-- The parts of a script that mean something, and the characters that mean
nothing. -/
inductive Lexeme where
  | move (d : Direction)
  | word (name : String)
  | number (digits : String)
  | openParen
  | closeParen
  | openBrace
  | closeBrace
  | semicolon
  | less
  | assign
  | increment
  | other (c : Char)
  /-- The end of the script. -/
  | finish
deriving DecidableEq, Repr

namespace Lexeme

/-- How a lexeme is spelled. -/
def text : Lexeme → String
  | move d => d.call
  | word name => name
  | number digits => digits
  | openParen => "("
  | closeParen => ")"
  | openBrace => "\x7b"
  | closeBrace => "\x7d"
  | semicolon => ";"
  | less => "<"
  | assign => "="
  | increment => "++"
  | other c => String.singleton c
  | finish => ""

/-- Whether a word can begin with this character. -/
def startsWord (c : Char) : Bool :=
  c.isAlpha || c == '_' || c == '$'

/-- Whether a word can go on with this character. -/
def continuesWord (c : Char) : Bool :=
  c.isAlphanum || c == '_' || c == '$'

/-- The lexeme of a character that is neither blank nor part of a longer one. -/
def ofMark : Char → Lexeme
  | '(' => openParen
  | ')' => closeParen
  | '{' => openBrace
  | '}' => closeBrace
  | ';' => semicolon
  | '<' => less
  | '=' => assign
  | c => other c

/-- The text after the first `*/`, with the text up to and including it; `none`
if there is no `*/`. -/
def closeComment : List Char → Option (List Char × List Char)
  | '*' :: '/' :: r => some (['*', '/'], r)
  | c :: r => (closeComment r).map fun (inside, rest) => (c :: inside, rest)
  | [] => none

/-- The comment at the front of a text, and the rest. -/
def takeComment : List Char → Option (List Char × List Char)
  | '/' :: '/' :: r => some ('/' :: '/' :: r.takeWhile (· ≠ '\n'), r.dropWhile (· ≠ '\n'))
  | '/' :: '*' :: r => (closeComment r).map fun (inside, rest) => ('/' :: '*' :: inside, rest)
  | _ => none

/-- The direction whose call stands at the front of a text, and the rest. -/
def takeMove (cs : List Char) : Option (Direction × List Char) :=
  Direction.all.findSome? fun d =>
    if d.call.toList.isPrefixOf cs then some (d, cs.drop d.call.length) else none

/-- What stands at the front of a text: the lexeme, unless it is blank or a
comment, the characters that were taken, and the rest. -/
structure Cut where
  lexeme : Option Lexeme
  taken : List Char
  rest : List Char

/-- Takes what stands at the front of a text that begins with `c`. -/
def take (c : Char) (r : List Char) : Cut :=
  match takeComment (c :: r) with
  | some (taken, rest) => ⟨none, taken, rest⟩
  | none =>
    if Text.isBlank c then
      ⟨none, c :: r.takeWhile Text.isBlank, r.dropWhile Text.isBlank⟩
    else
      match takeMove (c :: r) with
      | some (d, rest) => ⟨some (move d), d.call.toList, rest⟩
      | none =>
        if startsWord c then
          let taken := c :: r.takeWhile continuesWord
          ⟨some (word (String.ofList taken)), taken, r.dropWhile continuesWord⟩
        else if c.isDigit then
          let taken := c :: r.takeWhile Char.isDigit
          ⟨some (number (String.ofList taken)), taken, r.dropWhile Char.isDigit⟩
        else
          match c, r with
          | '+', '+' :: rest => ⟨some increment, ['+', '+'], rest⟩
          | _, _ => ⟨some (ofMark c), [c], r⟩

/-! ### What is taken and what is left -/

theorem closeComment_append {cs taken rest : List Char} (h : closeComment cs = some (taken, rest)) :
    taken ++ rest = cs := by
  fun_induction closeComment cs generalizing taken rest with
  | case1 r => cases h; rfl
  | case2 c r _ ih =>
    obtain ⟨⟨inside, rest'⟩, hr, he⟩ := Option.map_eq_some_iff.mp h
    cases he
    simp [ih hr]
  | case3 => cases h

theorem takeComment_append {cs taken rest : List Char} (h : takeComment cs = some (taken, rest)) :
    taken ++ rest = cs := by
  unfold takeComment at h
  split at h
  · cases h
    simp [List.takeWhile_append_dropWhile]
  · obtain ⟨⟨inside, rest'⟩, hr, he⟩ := Option.map_eq_some_iff.mp h
    cases he
    simp [closeComment_append hr]
  · cases h

theorem takeComment_ne_nil {cs taken rest : List Char} (h : takeComment cs = some (taken, rest)) :
    taken ≠ [] := by
  unfold takeComment at h
  split at h
  · cases h; simp
  · obtain ⟨⟨inside, rest'⟩, hr, he⟩ := Option.map_eq_some_iff.mp h
    cases he; simp
  · cases h

theorem takeMove_append {cs rest : List Char} {d : Direction} (h : takeMove cs = some (d, rest)) :
    d.call.toList ++ rest = cs := by
  obtain ⟨d', _, hd⟩ := List.exists_of_findSome?_eq_some h
  split at hd
  · rename_i hp
    cases hd
    obtain ⟨t, rfl⟩ := List.isPrefixOf_iff_prefix.mp hp
    simp [← String.length_toList]
  · cases hd

/-- The characters taken and the rest are the whole text. -/
theorem take_append (c : Char) (r : List Char) : (take c r).taken ++ (take c r).rest = c :: r := by
  unfold take
  split
  · rename_i h
    exact takeComment_append h
  · split
    · simp [List.takeWhile_append_dropWhile]
    · split
      · rename_i h
        exact takeMove_append h
      · split
        · simp [List.takeWhile_append_dropWhile]
        · split
          · simp [List.takeWhile_append_dropWhile]
          · split <;> simp

theorem call_toList_ne_nil (d : Direction) : d.call.toList ≠ [] := by
  cases d <;> decide

/-- Something is always taken. -/
theorem take_ne_nil (c : Char) (r : List Char) : (take c r).taken ≠ [] := by
  unfold take
  split
  · rename_i h
    exact takeComment_ne_nil h
  · split
    · simp
    · split
      · exact call_toList_ne_nil _
      · split
        · simp
        · split
          · simp
          · split <;> simp

/-- The rest is shorter than the text. -/
theorem length_rest_take (c : Char) (r : List Char) :
    (take c r).rest.length < (c :: r).length := by
  have happ := congrArg List.length (take_append c r)
  have hne := List.length_pos_iff.mpr (take_ne_nil c r)
  simp only [List.length_append] at happ
  omega

end Lexeme

/-- A line and a column, both counted from one. -/
structure Place where
  line : Nat := 1
  column : Nat := 1
deriving DecidableEq, Repr

namespace Place

/-- The place after a character. -/
def next (p : Place) (c : Char) : Place :=
  if c = '\n' then ⟨p.line + 1, 1⟩ else ⟨p.line, p.column + 1⟩

/-- The place after a text. -/
def after (p : Place) (cs : List Char) : Place := cs.foldl next p

@[simp] theorem after_nil (p : Place) : p.after [] = p := rfl

theorem after_append (p : Place) (cs ds : List Char) :
    p.after (cs ++ ds) = (p.after cs).after ds := by
  simp [after, List.foldl_append]

end Place

/-- A lexeme and the place at which it starts. -/
structure Token where
  lexeme : Lexeme
  line : Nat
  column : Nat
deriving DecidableEq, Repr

namespace Token

/-- A lexeme at a place. -/
def placed (k : Lexeme) (p : Place) : Token := ⟨k, p.line, p.column⟩

/-- The tokens of a text that starts at a given place; the last of them is the
end. -/
def scanFrom (p : Place) : List Char → List Token
  | [] => [.placed .finish p]
  | c :: r =>
    let cut := Lexeme.take c r
    let rest := scanFrom (p.after cut.taken) cut.rest
    match cut.lexeme with
    | some k => .placed k p :: rest
    | none => rest
termination_by cs => cs.length
decreasing_by exact Lexeme.length_rest_take c r

end Token

end ScriptedMaze
