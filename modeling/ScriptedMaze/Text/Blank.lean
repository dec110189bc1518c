/-!
# Blank characters, and text without them at its ends

A script, a maze row and a setting may be padded, and what counts as padding is
one set for all of them: the characters that Unicode gives the property
*White_Space*, and the four separator controls U+001C to U+001F. The set is
decided by `Text.isBlank`; `Text.trim` cuts a text at both ends, and `Text.trimmed`
does the same to a `String`.

A text is **blank** when trimming leaves nothing of it (`Text.blank`), which is
to say that all its characters are blank.
-/

namespace ScriptedMaze.Text

/-- The blank characters: the white space of Unicode and the separator controls
U+001C to U+001F. -/
def isBlank (c : Char) : Bool :=
  let n := c.toNat
  (0x09 ≤ n && n ≤ 0x0D) || (0x1C ≤ n && n ≤ 0x20) || n == 0x85 || n == 0xA0 || n == 0x1680 ||
    (0x2000 ≤ n && n ≤ 0x200A) || n == 0x2028 || n == 0x2029 || n == 0x202F || n == 0x205F ||
    n == 0x3000

/-- What is left of a text when the blank characters at its end are cut. -/
def trimEnd (cs : List Char) : List Char :=
  (cs.reverse.dropWhile isBlank).reverse

/-- What is left of a text when the blank characters at both ends are cut. -/
def trim (cs : List Char) : List Char :=
  trimEnd (cs.dropWhile isBlank)

/-- A string without the blank characters at its ends. -/
def trimmed (s : String) : String :=
  String.ofList (trim s.toList)

/-- Whether a string holds blank characters only. -/
def blank (s : String) : Bool :=
  s.toList.all isBlank

end ScriptedMaze.Text
