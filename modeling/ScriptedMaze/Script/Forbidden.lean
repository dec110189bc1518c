import ScriptedMaze.Script.Fault
import ScriptedMaze.Script.Token

/-!
# What a script may not contain

Some words promise more than a script can do, and a source that contains one of
them is rejected before it is looked at any further, wherever the word stands,
be it in a comment. A word counts only as a whole: `renew` does not contain the
word `new`. The arrow `=>` is forbidden too, whatever stands around it.

The source is searched from the front and the first hit is reported, with its
line: one more than the line feeds before it. The search is on the source as it
was given, where a carriage return alone ends no line.
-/

namespace ScriptedMaze.Script

/-- The words that a script may not contain. -/
def forbiddenWords : List String :=
  ["while", "async", "await", "fetch", "XMLHttpRequest", "function", "class", "import", "export",
    "new", "window", "document", "eval"]

/-- The first forbidden text from a given line on, and its line. -/
def findForbidden (line : Nat) : List Char → Option (String × Nat)
  | [] => none
  | c :: r =>
    if Lexeme.continuesWord c then
      let word := String.ofList (c :: r.takeWhile Lexeme.continuesWord)
      if word ∈ forbiddenWords then some (word, line)
      else findForbidden line (r.dropWhile Lexeme.continuesWord)
    else if c = '=' ∧ r.head? = some '>' then some ("=>", line)
    else findForbidden (if c = '\n' then line + 1 else line) r
termination_by cs => cs.length
decreasing_by
  · have h := (List.dropWhile_sublist Lexeme.continuesWord (l := r)).length_le
    simp only [List.length_cons]
    omega
  · simp

/-- Rejects a source that contains something forbidden. -/
def checkAllowed (source : String) : Except Fault Unit :=
  match findForbidden 1 source.toList with
  | some (text, line) => .error (.forbidden text line)
  | none => .ok ()

end ScriptedMaze.Script
