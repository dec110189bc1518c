import ScriptedMaze.Json.Reading
import ScriptedMaze.Service.Address

/-!
# Requests and answers

A request has a method, an address, and a body, which is meant to be JSON. A
malformed body, and one that counts as nothing, is taken for an empty object
(`Request.content`); one that is nested too deep is not taken at all. An answer
is a status and a body. Where something goes wrong that no answer is foreseen for,
there is `Answer.broken` instead of one.
-/

namespace ScriptedMaze.Service

/-- What a client sends. -/
structure Request where
  method : String
  address : Address
  body : ByteArray := ByteArray.empty

namespace Request

/-- The body; an empty object if there is none. -/
def content (r : Request) : Except Json.Fault Json :=
  match Json.readBytes r.body with
  | .error .malformed => .ok (.object [])
  | .error f => .error f
  | .ok v => .ok (if v.isNothing then .object [] else v)

end Request

/-- What a client is sent back. -/
structure Answer where
  status : Nat
  body : Option Json

namespace Answer

/-- An answer that carries a value. -/
def ok (v : Json) : Answer := ⟨200, some v⟩

/-- An answer without a body. -/
def bare (status : Nat) : Answer := ⟨status, none⟩

/-- An answer that only says what is wrong. -/
def fault (message : String) (status : Nat := 400) (more : List (String × Json) := []) : Answer :=
  ⟨status, some (.object ([("status", .text "error"), ("message", .text message)] ++ more))⟩

/-- What is there instead of an answer where something went wrong that none is
foreseen for. Nothing else has this status; what a client is sent is up to the
router. -/
def broken : Answer := bare 500

end Answer

end ScriptedMaze.Service
