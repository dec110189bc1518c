import ScriptedMaze.Text.Printable
import ScriptedMaze.Text.Surrogate

/-!
# Text quoted in a message

A message that names a text it was given shows it between quotes, in such a way
that what stands between them can be read back: the quote and the backslash are
escaped, and so is every character that has no picture. The quote is `'`, or
`"` for a text that holds a `'` and no `"` (`Text.quoteFor`).

The line feed, the carriage return and the tabulator have short escapes; other
characters without a picture are written by their code point in two, four or
eight hexadecimal digits, the fewest that hold it (`Text.escapeCode`). So is half
of a surrogate pair, in a text that holds one (`Text.quotedLetters`).
-/

namespace ScriptedMaze.Text

/-- A hexadecimal digit, in lower case. -/
def hexDigit (n : Nat) : Char :=
  if n < 10 then Char.ofNat (0x30 + n) else Char.ofNat (0x61 + (n - 10))

/-- The last `width` hexadecimal digits of a number, the highest first. -/
def hexDigits : (width : Nat) → (n : Nat) → List Char
  | 0, _ => []
  | w + 1, n => hexDigits w (n / 16) ++ [hexDigit (n % 16)]

/-- A code point as an escape: two, four or eight digits. -/
def escapeCode (n : Nat) : List Char :=
  if n < 0x100 then '\\' :: 'x' :: hexDigits 2 n
  else if n < 0x10000 then '\\' :: 'u' :: hexDigits 4 n
  else '\\' :: 'U' :: hexDigits 8 n

/-- One character as it stands between the quotes `q`. -/
def quoteChar (q : Char) (c : Char) : List Char :=
  if c = q ∨ c = '\\' then ['\\', c]
  else if c = '\n' then ['\\', 'n']
  else if c = '\r' then ['\\', 'r']
  else if c = '\t' then ['\\', 't']
  else if isPrintable c then [c]
  else escapeCode c.toNat

/-- The quote that a text is put between. -/
def quoteFor (cs : List Char) : Char :=
  if '\'' ∈ cs ∧ '"' ∉ cs then '"' else '\''

/-- A text between quotes, with everything escaped that would not read back. -/
def quoted (s : String) : String :=
  let cs := s.toList
  let q := quoteFor cs
  String.ofList (q :: cs.flatMap (quoteChar q) ++ [q])

/-- One letter as it stands between the quotes `q`. -/
def quoteLetter (q : Char) : Letter → List Char
  | .char c => quoteChar q c
  | .half n => escapeCode n

/-- A text between quotes in which halves of surrogate pairs may stand. -/
def quotedLetters (ls : List Letter) : String :=
  let q := quoteFor (ls.filterMap Letter.char?)
  String.ofList (q :: ls.flatMap (quoteLetter q) ++ [q])

end ScriptedMaze.Text
