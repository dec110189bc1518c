import ScriptedMaze.Decimal.Reading
import ScriptedMaze.Text.Digit

/-!
# Arguments of a command line

A command takes one argument that stands alone, its *subject*, and options. An
option may stand before or after the subject, and may be shortened as long as
only one option begins that way. A value follows its option, or is joined to it
by `=`. After `--` everything stands alone. A word that begins with a dash and is no
option is a value only if it is a negative number, holds a space, or is the dash
itself.

What becomes of `--` that is joined to an option is not the same everywhere, and
neither is how long can be waited for after a step; both are left to the `Host`.

The words are sorted first (`Arguments.sortWords`), and then read from left to
right (`Arguments.read`). Help is given as soon as it is come to, and a wrong use
of an option is found when the option is come to; that there are words too many,
or no subject, is found at the end.
-/

namespace ScriptedMaze.Terminal

/-- The options of the commands. -/
inductive Opt where
  | help
  | difficulty
  | maze
  | live
  | delay
deriving DecidableEq, Repr

namespace Opt

/-- Whether a value belongs to an option. -/
def takesValue : Opt → Bool
  | difficulty => true
  | maze => true
  | delay => true
  | _ => false

end Opt

/-- The spellings of the options that a command has. -/
abbrev Spellings := List (String × Opt)

/-- The command has no options but the one that asks for help. -/
def helpOnly : Spellings := [("-h", .help), ("--help", .help)]

/-- All options. -/
def allOptions : Spellings :=
  helpOnly ++ [("--difficulty", .difficulty), ("--maze", .maze), ("--live", .live),
    ("--delay", .delay)]

/-- A word of a command line. -/
inductive Word where
  /-- The word `--`. -/
  | separator
  /-- A word that stands alone. -/
  | plain (text : String)
  /-- An option, whether it was spelled with one dash, and what is joined to it
  in the same word. -/
  | option (o : Opt) (short : Bool) (joined : Option String)
  /-- A word that looks like an option. -/
  | unknown
deriving DecidableEq, Repr

/-- Why a command is not carried out. -/
inductive Stop where
  /-- Help was asked for. -/
  | help
  /-- The command line makes no sense. -/
  | usage
deriving DecidableEq, Repr

/-- What the tools leave to the system that they run on. -/
structure Host where
  /-- Whether `--` says nothing where it is joined to an option: the option is given,
  but there is nothing in it. Otherwise it is a value like any other. -/
  dropsSeparator : Bool := true
  /-- Whether so many seconds can be waited for. -/
  waits : Float → Bool := fun _ => true

/-- Whether a wait can be made. There is none if the seconds are not positive. -/
def Host.canWait (host : Host) (seconds : Float) : Bool := !(0.0 < seconds) || host.waits seconds

/-- What is said about the wait after a step. -/
inductive Delay where
  | seconds (x : Float)
  /-- There is a wait, but nobody can tell how long it is. -/
  | unsaid

/-- The seconds of a wait that can be made. -/
def Delay.seconds? (host : Host) : Delay → Option Float
  | seconds x => if host.canWait x then some x else none
  | unsaid => none

/-- What a command line asks for. An empty text counts as given, and names
nothing. -/
structure Arguments where
  subject : Option String := none
  difficulty : Option String := none
  maze : Option String := none
  live : Bool := false
  delay : Option Delay := none
  /-- Whether there are words that nobody asked for. -/
  tooMany : Bool := false

namespace Arguments

/-! ### Sorting words -/

/-- Whether a word is a negative number: digits, or digits with a point before
some of them. A line feed may follow. -/
def isNegativeNumber (word : List Char) : Bool :=
  match word with
  | '-' :: r =>
    let body := if r.getLast? = some '\n' then r.dropLast else r
    let rest := body.dropWhile Text.isDigit
    match rest with
    | [] => !body.isEmpty
    | '.' :: ds => !ds.isEmpty && ds.all Text.isDigit
    | _ => false
  | _ => false

/-- A word cut at its first `=`. -/
def cutAtEquals (word : String) : String × Option String :=
  let cs := word.toList
  match cs.dropWhile (· ≠ '=') with
  | [] => (word, none)
  | _ :: r => (String.ofList (cs.takeWhile (· ≠ '=')), some (String.ofList r))

/-- The option with a given spelling. -/
def spelled? (opts : Spellings) (name : String) : Option Opt :=
  (opts.find? (·.1 = name)).map (·.2)

/-- The ways to take a word for an option that it does not spell out. -/
def guesses (opts : Spellings) (word : String) : List Word :=
  match word.toList with
  | '-' :: '-' :: _ =>
    let (name, joined) := cutAtEquals word
    opts.filterMap fun (s, o) =>
      if name.toList.isPrefixOf s.toList then some (.option o false joined) else none
  | '-' :: c :: r =>
    opts.filterMap fun (s, o) =>
      if s = String.ofList ['-', c] then some (.option o true (some (String.ofList r)))
      else none
  | _ => []

/-- Sorts one word that is not `--`; `none` if it could be several options. -/
def sortWord (opts : Spellings) (word : String) : Option Word :=
  match word.toList with
  | '-' :: c :: r =>
    let short := c ≠ '-'
    match spelled? opts word with
    | some o => some (.option o short none)
    | none =>
      let (name, joined) := cutAtEquals word
      match joined, spelled? opts name with
      | some j, some o => some (.option o short (some j))
      | _, _ =>
        match guesses opts word with
        | [w] => some w
        | _ :: _ :: _ => none
        | [] =>
          if isNegativeNumber ('-' :: c :: r) || (c :: r).contains ' ' then some (.plain word)
          else some .unknown
  | _ => some (.plain word)

/-- Sorts the words of a command line. -/
def sortWords (opts : Spellings) : List String → Except Stop (List Word)
  | [] => .ok []
  | word :: rest =>
    if word = "--" then .ok (.separator :: rest.map .plain)
    else
      match sortWord opts word with
      | none => .error .usage
      | some w => (sortWords opts rest).map (w :: ·)

/-! ### Reading words -/

/-- What comes of letters joined to the short option for help: each of them has
to be that option once more. -/
def readCluster (letters : String) : Stop :=
  if !letters.isEmpty && letters.toList.all (· = 'h') then .help else .usage

/-- Reads an option without a value. -/
def readFlag (a : Arguments) (o : Opt) (short : Bool) (joined : Option String) :
    Except Stop Arguments :=
  match joined with
  | none => if o = .live then .ok { a with live := true } else .error .help
  | some text => if short then .error (readCluster text) else .error .usage

/-- Reads an option with its value. The maze can be given in one way only. -/
def readValue (a : Arguments) (host : Host) (o : Opt) (value : String) :
    Except Stop Arguments :=
  let dropped := host.dropsSeparator && value = "--"
  let said := if dropped then "" else value
  match o with
  | .difficulty =>
    if a.maze.isSome then .error .usage else .ok { a with difficulty := some said }
  | .maze =>
    if a.difficulty.isSome then .error .usage else .ok { a with maze := some said }
  | .delay =>
    if dropped then .ok { a with delay := some .unsaid }
    else
      match Decimal.readFloat? value with
      | some x => .ok { a with delay := some (.seconds x) }
      | none => .error .usage
  | _ => .error .usage

/-- Reads words from left to right. -/
def readWords (host : Host) (a : Arguments) : List Word → Except Stop Arguments
  | [] => .ok a
  | .plain text :: .separator :: rest =>
    if a.subject.isNone then readWords host { a with subject := some text } rest
    else readWords host { a with tooMany := true } rest
  | .plain text :: rest =>
    if a.subject.isNone then readWords host { a with subject := some text } rest
    else readWords host { a with tooMany := true } rest
  | .separator :: .plain text :: rest =>
    if a.subject.isNone then readWords host { a with subject := some text } rest
    else readWords host { a with tooMany := true } rest
  | .separator :: rest => readWords host { a with tooMany := true } rest
  | .unknown :: rest => readWords host { a with tooMany := true } rest
  | .option o short (some j) :: rest =>
    match if o.takesValue then a.readValue host o j else a.readFlag o short (some j) with
    | .ok a => readWords host a rest
    | .error e => .error e
  | .option o short none :: rest =>
    if o.takesValue then
      match rest with
      | .plain text :: rest =>
        match a.readValue host o text with
        | .ok a => readWords host a rest
        | .error e => .error e
      | _ => .error .usage
    else
      match a.readFlag o short none with
      | .ok a => readWords host a rest
      | .error e => .error e

/-- The subject of a command line, and its options. -/
def read (opts : Spellings) (words : List String) (host : Host := {}) :
    Except Stop (String × Arguments) := do
  let a ← readWords host {} (← sortWords opts words)
  match a.subject with
  | some subject => if a.tooMany then throw .usage else return (subject, a)
  | none => throw .usage

end Arguments

end ScriptedMaze.Terminal
