import ScriptedMaze.Decimal.Reading
import ScriptedMaze.Json.Value
import ScriptedMaze.Text.Digit
import ScriptedMaze.Text.Encoding

/-!
# Reading JSON

`Json.read?` reads a whole document: one value, with blanks around it and
nothing else. Besides the numbers of the standard `NaN`, `Infinity` and
`-Infinity` are read, and an integer may have `Decimal.mostDigits` digits. Two
escapes that are the halves of a surrogate pair are one character; any other half
stands by itself, and a text that holds one is `Json.torn`. A document that comes
as bytes is read in the encoding that the bytes show (`Json.readBytes`).

Lists and objects may be nested `Json.mostNested` deep. Going deeper is a fault of
its own, which is found where the document goes too deep, whatever comes after.

The readers take a text and give what stands at its front and the rest. A value
is read with some fuel, which every value and every part of a list or an object
uses up by one; each of these has a character of its own in the text, so that
the length of the text is fuel enough.
-/

namespace ScriptedMaze.Json

/-- Why a document has no value. -/
inductive Fault where
  | malformed
  /-- A list is nested too deep. -/
  | deepList
  /-- An object is nested too deep. -/
  | deepObject
deriving DecidableEq, Repr

/-- What is said about a document that has no value. -/
def Fault.message : Fault → String
  | malformed => "malformed document"
  | deepList => tooDeep "array"
  | deepObject => tooDeep "object"
where
  tooDeep (what : String) : String :=
    "maximum recursion depth exceeded while decoding a JSON " ++ what ++ " from a unicode string"

/-- A text that is to be read. -/
abbrev Letters := List Text.Letter

/-- Whether a character may stand between the parts of a document. -/
def isBlank (c : Char) : Bool := c == ' ' || c == '\t' || c == '\n' || c == '\r'

/-- The text after the blanks at its front. -/
def skipBlanks (ls : Letters) : Letters := (Text.leading isBlank ls).2

/-- The number of four hexadecimal digits. -/
def hexUnit? (a b c d : Char) : Option Nat := do
  return 4096 * (← Text.hexValue? a) + 256 * (← Text.hexValue? b) + 16 * (← Text.hexValue? c)
    + (← Text.hexValue? d)

/-- The unit of sixteen bits that an escape at the front of a text stands for, and
the rest. -/
def readUnit : Letters → Option (Nat × Letters)
  | .char '\\' :: .char 'u' :: .char a :: .char b :: .char c :: .char d :: r =>
    (hexUnit? a b c d).map (·, r)
  | _ => none

/-- The character of an escape with one letter. -/
def escaped? : Char → Option Char
  | '"' => some '"'
  | '\\' => some '\\'
  | '/' => some '/'
  | 'b' => some '\x08'
  | 'f' => some '\x0C'
  | 'n' => some '\n'
  | 'r' => some '\r'
  | 't' => some '\t'
  | _ => none

/-- The letter at the front of a text between quotes, which may be escaped, and
the rest. Two escapes that are a pair are one letter. -/
def readLetter : Letters → Option (Text.Letter × Letters)
  | .char '\\' :: .char 'u' :: r =>
    match readUnit (.char '\\' :: .char 'u' :: r) with
    | none => none
    | some (hi, rest) =>
      match readUnit rest with
      | some (lo, later) =>
        if Text.isHighHalf hi && Text.isLowHalf lo then
          some (.ofCode (Text.joinHalves hi lo), later)
        else some (.ofCode hi, rest)
      | none => some (.ofCode hi, rest)
  | .char '\\' :: .char c :: r => (escaped? c).map fun k => (.char k, r)
  | .char c :: r => if c.toNat < 0x20 || c == '\\' then none else some (.char c, r)
  | .half n :: r => some (.half n, r)
  | [] => none

/-- A unit takes up room. -/
theorem length_readUnit {ls rest : Letters} {n : Nat} (h : readUnit ls = some (n, rest)) :
    rest.length < ls.length := by
  unfold readUnit at h
  split at h
  · obtain ⟨m, -, hm⟩ := Option.map_eq_some_iff.mp h
    cases hm
    simp only [List.length_cons]
    omega
  · cases h

/-- A letter takes up room. -/
theorem length_readLetter {ls rest : Letters} {l : Text.Letter}
    (h : readLetter ls = some (l, rest)) : rest.length < ls.length := by
  unfold readLetter at h
  split at h
  · split at h
    · cases h
    · next hi r₁ h₁ =>
      have l₁ := length_readUnit h₁
      split at h
      · next lo r₂ h₂ =>
        have l₂ := length_readUnit h₂
        split at h
        · obtain ⟨-, rfl⟩ := Prod.mk.inj (Option.some.inj h)
          omega
        · obtain ⟨-, rfl⟩ := Prod.mk.inj (Option.some.inj h)
          omega
      · obtain ⟨-, rfl⟩ := Prod.mk.inj (Option.some.inj h)
        exact l₁
  · obtain ⟨k, -, hk⟩ := Option.map_eq_some_iff.mp h
    cases hk
    simp only [List.length_cons]
    omega
  · split at h
    · cases h
    · cases h
      simp
  · cases h
    simp
  · cases h

/-- The letters of a text up to its closing quote, and what follows that; `seen`
are the letters so far, the latest first. -/
def readString (seen : Letters) (ls : Letters) : Option (Letters × Letters) :=
  match ls with
  | .char '"' :: r => some (seen.reverse, r)
  | ls =>
    match _ : readLetter ls with
    | some (l, rest) => readString (l :: seen) rest
    | none => none
termination_by ls.length
decreasing_by exact length_readLetter ‹_›

/-- The text after a given word, if it begins with it. -/
def dropWord (word : String) (ls : Letters) : Option Letters :=
  if (Text.letters word).isPrefixOf ls then some (ls.drop word.length) else none

/-- The characters that can stand in a number. -/
def inNumber (c : Char) : Bool :=
  c.isDigit || c == '-' || c == '+' || c == '.' || c == 'e' || c == 'E'

/-- A number: an integer if it has neither point nor exponent. -/
def numberOf? (cs : List Char) : Option Json :=
  let (negative, body) :=
    match cs with
    | '-' :: r => (true, r)
    | _ => (false, cs)
  let whole := body.takeWhile Char.isDigit
  let rest := body.dropWhile Char.isDigit
  if whole.isEmpty || (whole.head? = some '0' && 1 < whole.length) then none
  else if rest.isEmpty then
    if Decimal.mostDigits < whole.length then none
    else
      let n : Int := Decimal.digitsValue whole
      some (.int (if negative then -n else n))
  else if rest.head? = some '.' && !((rest.drop 1).head?.any Char.isDigit) then none
  else (Decimal.readUnsigned? negative body).map fun l => .real l.toFloat

/-- A value that is neither a text nor a list nor an object. -/
def readScalar (ls : Letters) : Option (Json × Letters) :=
  let words : List (String × Json) := [
    ("null", .null), ("true", .truth true), ("false", .truth false), ("NaN", .real (0.0 / 0.0)),
    ("Infinity", .real (1.0 / 0.0)), ("-Infinity", .real (-1.0 / 0.0))]
  match words.findSome? fun (w, v) => (dropWord w ls).map (v, ·) with
  | some found => some found
  | none =>
    let (cs, rest) := Text.leading inNumber ls
    (numberOf? cs).map (·, rest)

/-- Reads what is in a list or an object, if it may be nested so deep. -/
def nested {α : Type} (deep : Fault) (depth : Nat) (read : Nat → Except Fault α) :
    Except Fault α :=
  match depth with
  | 0 => .error deep
  | depth + 1 => read depth

mutual

/-- The value at the front of a text, in which lists and objects may be nested
`depth` deep. -/
def readValue : (fuel depth : Nat) → Letters → Except Fault (Json × Letters)
  | 0, _, _ => .error .malformed
  | fuel + 1, depth, ls =>
    match ls with
    | .char '"' :: r =>
      match readString [] r with
      | some (seen, rest) => .ok (ofLetters seen, rest)
      | none => .error .malformed
    | .char '[' :: r => nested .deepList depth fun depth =>
      match skipBlanks r with
      | .char ']' :: rest => .ok (.list [], rest)
      | r => (readItems fuel depth [] r).map fun (items, rest) => (.list items, rest)
    | .char '\x7b' :: r => nested .deepObject depth fun depth =>
      match skipBlanks r with
      | .char '\x7d' :: rest => .ok (.object [], rest)
      | r => (readMembers fuel depth [] r).map fun (members, rest) => (.object members, rest)
    | ls =>
      match readScalar ls with
      | some found => .ok found
      | none => .error .malformed

/-- The items of a list from one of them on, and the text after the list. -/
def readItems : (fuel depth : Nat) → (seen : List Json) → Letters →
    Except Fault (List Json × Letters)
  | 0, _, _, _ => .error .malformed
  | fuel + 1, depth, seen, ls =>
    match readValue fuel depth (skipBlanks ls) with
    | .error f => .error f
    | .ok (v, r) =>
      match skipBlanks r with
      | .char ',' :: r => readItems fuel depth (v :: seen) r
      | .char ']' :: r => .ok ((v :: seen).reverse, r)
      | _ => .error .malformed

/-- The members of an object from one of them on, and the text after the
object. -/
def readMembers : (fuel depth : Nat) → (seen : List (String × Json)) → Letters →
    Except Fault (List (String × Json) × Letters)
  | 0, _, _, _ => .error .malformed
  | fuel + 1, depth, seen, ls =>
    match skipBlanks ls with
    | .char '"' :: r =>
      match readString [] r with
      | none => .error .malformed
      | some (name, r) =>
        match skipBlanks r with
        | .char ':' :: r =>
          match readValue fuel depth (skipBlanks r) with
          | .error f => .error f
          | .ok (v, r) =>
            match skipBlanks r with
            | .char ',' :: r => readMembers fuel depth (withMember (mended name) v seen) r
            | .char '\x7d' :: r => .ok (withMember (mended name) v seen, r)
            | _ => .error .malformed
        | _ => .error .malformed
    | _ => .error .malformed

end

/-- How deep lists and objects may be nested. -/
def mostNested : Nat := 975

/-- The value of a document that is given by its letters. -/
def readLetters (ls : Letters) : Except Fault Json :=
  match readValue (2 * ls.length + 2) mostNested (skipBlanks ls) with
  | .ok (v, rest) => if (skipBlanks rest).isEmpty then .ok v else .error .malformed
  | .error f => .error f

/-- The value of a document. -/
def read? (s : String) : Option Json := (readLetters (Text.letters s)).toOption

/-- The value of a document that comes as bytes. -/
def readBytes (bytes : ByteArray) : Except Fault Json :=
  match Text.decode bytes with
  | some ls => readLetters ls
  | none => .error .malformed

end ScriptedMaze.Json
