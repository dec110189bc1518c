/-!
# Why a script is rejected

A script that cannot be turned into moves is rejected as a whole, for one of the
reasons of `Script.Fault`. The reasons fall into six kinds with stable names
(`Fault.kind`), and most of them point at a line. What a player reads is
`Fault.message`: the reason in words (`Fault.summary`), and the line in brackets
if there is one.
-/

namespace ScriptedMaze.Script

/-- Why a script is rejected. -/
inductive Fault where
  /-- There is nothing but blank characters. -/
  | emptyProgram
  /-- A forbidden word or arrow stands in the source. -/
  | forbidden (text : String) (line : Nat)
  /-- A loop runs too often; the most that is allowed. -/
  | boundTooLarge (most : Int) (line : Nat)
  /-- Braced loops are nested too deeply, or are expanded too often. -/
  | tooMuchExpansion (line : Nat)
  /-- A loop does not begin as loops have to. -/
  | badHeader (line : Nat)
  /-- The brace after a loop's header is not closed. -/
  | neverClosed (line : Nat)
  /-- Nothing follows a loop's header. -/
  | noBody (line : Nat)
  /-- A loop without braces runs into a brace that closes nothing. -/
  | bodyCutOff (line : Nat)
  /-- A loop without braces holds another loop. -/
  | nestedWithoutBraces (line : Nat)
  /-- There are more moves than allowed; how many, and how many are allowed. -/
  | tooManyMoves (count : Nat) (most : Int)
deriving DecidableEq, Repr

/-- The kinds of fault that callers tell apart. -/
inductive FaultKind where
  | emptyProgram
  | syntaxRejected
  | loopBoundExceeded
  | loopExpansionOverflow
  | unsupportedLoopShape
  | moveLimitExceeded
deriving DecidableEq, Repr

namespace FaultKind

/-- The stable name of a kind. -/
def name : FaultKind → String
  | emptyProgram => "empty_program"
  | syntaxRejected => "syntax_rejected"
  | loopBoundExceeded => "loop_bound_exceeded"
  | loopExpansionOverflow => "loop_expansion_overflow"
  | unsupportedLoopShape => "unsupported_loop_shape"
  | moveLimitExceeded => "move_limit_exceeded"

end FaultKind

namespace Fault

/-- The kind of a fault. -/
def kind : Fault → FaultKind
  | emptyProgram => .emptyProgram
  | forbidden .. => .syntaxRejected
  | boundTooLarge .. => .loopBoundExceeded
  | tooMuchExpansion _ => .loopExpansionOverflow
  | badHeader _ => .unsupportedLoopShape
  | neverClosed _ => .unsupportedLoopShape
  | noBody _ => .unsupportedLoopShape
  | bodyCutOff _ => .unsupportedLoopShape
  | nestedWithoutBraces _ => .unsupportedLoopShape
  | tooManyMoves .. => .moveLimitExceeded

/-- The line that a fault points at. -/
def line? : Fault → Option Nat
  | emptyProgram => none
  | forbidden _ line => some line
  | boundTooLarge _ line => some line
  | tooMuchExpansion line => some line
  | badHeader line => some line
  | neverClosed line => some line
  | noBody line => some line
  | bodyCutOff line => some line
  | nestedWithoutBraces line => some line
  | tooManyMoves .. => none

/-- The reason in words. -/
def summary : Fault → String
  | emptyProgram => "Please write some movement commands!"
  | forbidden text _ => "Disallowed syntax detected: '" ++ text ++ "'."
  | boundTooLarge most _ => "Loop upper bound too large (max " ++ toString most ++ ")."
  | tooMuchExpansion _ => "Loop expansion depth limit reached."
  | badHeader _ => "Only basic for loops with i from 0 to N-1 are allowed."
  | neverClosed _ => "Loop block is never closed."
  | noBody _ => "Loop has no body."
  | bodyCutOff _ => "Loop body is cut off by an unmatched '\x7d'."
  | nestedWithoutBraces _ => "Nested loops must use braces."
  | tooManyMoves count most =>
    "Too many moves (" ++ toString count ++ "). Limit is " ++ toString most ++ "."

/-- What a player reads: the reason, and the line if there is one. -/
def message (f : Fault) : String :=
  match f.line? with
  | some line => f.summary ++ " (line " ++ toString line ++ ")"
  | none => f.summary

end Fault

end ScriptedMaze.Script
