import ScriptedMaze.Decimal.Layout
import ScriptedMaze.Text.Quoted

/-!
# JSON values

A value is null, a truth value, a number, a text, a list or an object. A number
without point and exponent is an integer of any size, every other one a float;
the two stay apart even where they are equal. A text may hold half of a surrogate
pair, which is no character, and is then kept by its letters. An object keeps its
members in the order in which their names first came up, and of several members
of one name the last gives the value (`Json.withMember`).

A value is written in two ways, which differ in the space between its parts
(`Json.compact`, `Json.indented`), and it is shown in messages in a third one
(`Json.shown`), where texts stand between the quotes of `Text.quoted`.
-/

namespace ScriptedMaze

/-- A JSON value. -/
inductive Json where
  | null
  | truth (b : Bool)
  | int (n : Int)
  | real (x : Float)
  | text (s : String)
  /-- A text in which half of a surrogate pair stands by itself. -/
  | torn (letters : List Text.Letter)
  | list (items : List Json)
  | object (members : List (String × Json))
deriving Inhabited

namespace Json

/-- A natural number as a value. -/
def nat (n : Nat) : Json := .int n

/-- A value that may be missing; null where it is. -/
def orNull {α : Type} (f : α → Json) : Option α → Json
  | some a => f a
  | none => .null

/-- The text of given letters. -/
def ofLetters (ls : List Text.Letter) : Json :=
  match ls.mapM Text.Letter.char? with
  | some cs => .text (String.ofList cs)
  | none => .torn ls

/-- A name of given letters, in which U+FFFD stands for every half. Names are there to
be looked for, and the names that are looked for hold neither. -/
def mended (ls : List Text.Letter) : String :=
  String.ofList (ls.map fun l => l.char?.getD '\uFFFD')

/-- Members with one more, which replaces the one of its name if there is one. -/
def withMember (name : String) (v : Json) : List (String × Json) → List (String × Json)
  | [] => [(name, v)]
  | (n, w) :: rest =>
    if n = name then (n, v) :: rest else (n, w) :: withMember name v rest

/-- The member of an object with a given name. -/
def get? (name : String) : Json → Option Json
  | .object members => (members.find? (·.1 = name)).map (·.2)
  | _ => none

/-- Whether a value counts as nothing: null, false, zero, or empty. -/
def isNothing : Json → Bool
  | null => true
  | truth b => !b
  | int n => n = 0
  | real x => x == 0.0
  | text s => s.isEmpty
  | torn ls => ls.isEmpty
  | list items => items.isEmpty
  | object members => members.isEmpty

/-! ### Writing -/

/-- A character of a text as it is written. -/
def charText (c : Char) : List Char :=
  if c = '"' ∨ c = '\\' then ['\\', c]
  else if c.toNat < 0x20 then '\\' :: 'u' :: Text.hexDigits 4 c.toNat
  else [c]

/-- A text as it is written. -/
def stringText (s : String) : String :=
  String.ofList ('"' :: s.toList.flatMap charText ++ ['"'])

/-- A letter of a text as it is written. -/
def letterText : Text.Letter → List Char
  | .char c => charText c
  | .half n => '\\' :: 'u' :: Text.hexDigits 4 n

/-- A text with halves of surrogate pairs as it is written. -/
def tornText (ls : List Text.Letter) : String :=
  String.ofList ('"' :: ls.flatMap letterText ++ ['"'])

/-- A float as it is written. -/
def realText (x : Float) : String :=
  if x.isNaN then "NaN"
  else if x.isInf then (if x < 0.0 then "-Infinity" else "Infinity")
  else Decimal.floatText x

mutual

/-- A value without any space between its parts. -/
def compact : Json → String
  | null => "null"
  | truth true => "true"
  | truth false => "false"
  | int n => toString n
  | real x => realText x
  | text s => stringText s
  | torn ls => tornText ls
  | list items => "[" ++ compactItems items ++ "]"
  | object members => "\x7b" ++ compactMembers members ++ "\x7d"

/-- Values with commas between them. -/
def compactItems : List Json → String
  | [] => ""
  | [v] => v.compact
  | v :: rest => v.compact ++ "," ++ compactItems rest

/-- Members with commas between them. -/
def compactMembers : List (String × Json) → String
  | [] => ""
  | [(n, v)] => stringText n ++ ":" ++ v.compact
  | (n, v) :: rest => stringText n ++ ":" ++ v.compact ++ "," ++ compactMembers rest

end

/-- The start of a line inside `depth` brackets. -/
def newLine (depth : Nat) : String :=
  "\n" ++ String.ofList (List.replicate (2 * depth) ' ')

mutual

/-- A value inside `depth` brackets, each part on a line of its own. -/
def indentedAt (depth : Nat) : Json → String
  | null => "null"
  | truth true => "true"
  | truth false => "false"
  | int n => toString n
  | real x => realText x
  | text s => stringText s
  | torn ls => tornText ls
  | list [] => "[]"
  | list (v :: rest) => "[" ++ indentedItems (depth + 1) (v :: rest) ++ newLine depth ++ "]"
  | object [] => "\x7b\x7d"
  | object (m :: rest) =>
    "\x7b" ++ indentedMembers (depth + 1) (m :: rest) ++ newLine depth ++ "\x7d"

/-- Values on lines of their own. -/
def indentedItems (depth : Nat) : List Json → String
  | [] => ""
  | [v] => newLine depth ++ v.indentedAt depth
  | v :: rest => newLine depth ++ v.indentedAt depth ++ "," ++ indentedItems depth rest

/-- Members on lines of their own. -/
def indentedMembers (depth : Nat) : List (String × Json) → String
  | [] => ""
  | [(n, v)] => newLine depth ++ stringText n ++ ": " ++ v.indentedAt depth
  | (n, v) :: rest =>
    newLine depth ++ stringText n ++ ": " ++ v.indentedAt depth ++ "," ++
      indentedMembers depth rest

end

/-- A value, each part on a line of its own. -/
def indented (v : Json) : String := v.indentedAt 0

mutual

/-- A value as a message shows it. -/
def shown : Json → String
  | null => "None"
  | truth true => "True"
  | truth false => "False"
  | int n => toString n
  | real x => Decimal.floatText x
  | text s => Text.quoted s
  | torn ls => Text.quotedLetters ls
  | list items => "[" ++ shownItems items ++ "]"
  | object members => "\x7b" ++ shownMembers members ++ "\x7d"

/-- Values as a message shows them. -/
def shownItems : List Json → String
  | [] => ""
  | [v] => v.shown
  | v :: rest => v.shown ++ ", " ++ shownItems rest

/-- Members as a message shows them. -/
def shownMembers : List (String × Json) → String
  | [] => ""
  | [(n, v)] => Text.quoted n ++ ": " ++ v.shown
  | (n, v) :: rest => Text.quoted n ++ ": " ++ v.shown ++ ", " ++ shownMembers rest

end

end Json

end ScriptedMaze
