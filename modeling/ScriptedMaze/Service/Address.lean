import ScriptedMaze.Text.Digit
import ScriptedMaze.Text.Lines

/-!
# Addresses

What a client asks about is told by an address: a scheme and a host, a path, a
query after `?`, and a fragment after `#`. Scheme and host say where the service
is, and the fragment is the client's own affair, so that the path and the query
are left (`Address.read`). A character that could not stand in an address is
spelled by its bytes, each as `%` and two hexadecimal digits.

An address is split twice: where two slashes are in front of the path that is
left, a host stands behind them once more. However many slashes are in front
after that, they count as one. Slashes further on are the router's business.

A client may tell the query besides. It has no address to ask at if there is a
query in the address as well, or if a bracket of the host has no partner
(`AddressFault`).
-/

namespace ScriptedMaze.Service

/-- What a request is about. -/
structure Address where
  path : String
  query : List (String × String) := []
deriving DecidableEq, Repr

/-- Why a client has no address to ask at. -/
inductive AddressFault where
  /-- A bracket of the host has no partner. -/
  | brokenHost
  /-- A query is told in the address and besides it. -/
  | twoQueries
deriving DecidableEq, Repr

/-- What the client is told. -/
def AddressFault.message : AddressFault → String
  | brokenHost => "Invalid IPv6 URL"
  | twoQueries => "Query string is defined in the path and as an argument"

namespace Address

/-! ### Spelled bytes -/

/-- The bytes of a text in which a byte may be spelled. -/
def spelledBytes : List Char → List UInt8
  | '%' :: a :: b :: r =>
    match Text.hexValue? a, Text.hexValue? b with
    | some hi, some lo => (16 * hi + lo).toUInt8 :: spelledBytes r
    | _, _ => '%'.toUInt8 :: spelledBytes (a :: b :: r)
  | c :: r => String.utf8EncodeChar c ++ spelledBytes r
  | [] => []

/-- The character of a byte where the bytes are no text. -/
def looseChar (b : UInt8) : Char := if b < 0x80 then Char.ofUInt8 b else '\uFFFD'

/-- A text in which bytes may be spelled. If they come to no text, those beyond
ASCII are lost. -/
def despelled (cs : List Char) : List Char :=
  let bytes := spelledBytes cs
  match String.fromUTF8? ⟨bytes.toArray⟩ with
  | some s => s.toList
  | none => bytes.map looseChar

/-! ### Parts of an address -/

/-- Whether a character can stand in a scheme. -/
def inScheme (c : Char) : Bool := c.isAlphanum || c == '+' || c == '-' || c == '.'

/-- An address without its scheme. -/
def dropScheme (cs : List Char) : List Char :=
  match cs.span (· ≠ ':') with
  | (c :: name, _ :: rest) => if c.isAlpha && name.all inScheme then rest else cs
  | _ => cs

/-- The host that two slashes announce, and what comes after it. -/
def takeHost : List Char → List Char × List Char
  | '/' :: '/' :: r => r.span fun c => c ≠ '/' && c ≠ '?' && c ≠ '#'
  | cs => ([], cs)

/-- The path and the query of an address. -/
def split (cs : List Char) : Except AddressFault (List Char × List Char) :=
  let clean := (cs.dropWhile (· ≤ ' ')).filter fun c => c ≠ '\t' && c ≠ '\r' && c ≠ '\n'
  let (host, rest) := takeHost (dropScheme clean)
  if host.contains '[' = host.contains ']' then
    let (path, query) := (rest.takeWhile (· ≠ '#')).span (· ≠ '?')
    .ok (path, query.drop 1)
  else .error .brokenHost

/-- The members of a query. A name without a value has the empty one. -/
def members (query : List Char) : List (String × String) :=
  let text (cs : List Char) : String :=
    String.ofList (despelled (cs.map fun c => if c = '+' then ' ' else c))
  ((Text.pieces '&' query).filter (!·.isEmpty)).map fun piece =>
    let (name, value) := piece.span (· ≠ '=')
    (text name, text (value.drop 1))

/-- The address that a text is; the query may be told besides. -/
def read (s : String) (besides : Option (List (String × String)) := none) :
    Except AddressFault Address := do
  let (path, query) ← split s.toList
  if besides.isSome && !query.isEmpty then throw .twoQueries
  let (path, _) ← split path
  return {
    path := String.ofList ('/' :: (despelled path).dropWhile (· = '/'))
    query := besides.getD (members query) }

/-- The value of a member of the query. -/
def param? (a : Address) (name : String) : Option String :=
  (a.query.find? (·.1 = name)).map (·.2)

end Address

end ScriptedMaze.Service
