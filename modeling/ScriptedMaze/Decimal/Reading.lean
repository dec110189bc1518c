import ScriptedMaze.Text.Blank
import ScriptedMaze.Text.Digit
import ScriptedMaze.Text.Quoted

/-!
# Numbers read from text

A setting is a number written by hand. Blank characters around it are dropped,
all but the separator controls; a sign may stand in front; the digits may be of
any script; and between two digits one underscore may stand.

A whole number is digits (`Decimal.readInt?`), at most `Decimal.mostDigits` of
them, and it is written with no more of them either (`Decimal.writeInt`).

A floating-point number (`Decimal.readFloat?`) may have a point with digits on at
least one side of it, and an exponent; or it is `inf`, `infinity` or `nan` in
letters of either case. It is rounded to the nearest float, and one that is too
large becomes infinite.
-/

namespace ScriptedMaze.Decimal

/-- The most digits of a whole number. -/
def mostDigits : Nat := 4300

/-- Whether a character may pad a number. -/
def isPadding (c : Char) : Bool :=
  Text.isBlank c && !(0x1C ≤ c.toNat && c.toNat ≤ 0x1F)

/-- A text without the padding at its ends. -/
def unpadded (cs : List Char) : List Char :=
  ((cs.dropWhile isPadding).reverse.dropWhile isPadding).reverse

/-- The digits of all scripts become those of ASCII. -/
def asciiDigits (cs : List Char) : List Char :=
  cs.map fun c =>
    match Text.digitValue? c with
    | some n => Char.ofNat (0x30 + n)
    | none => c

/-- Drops the underscores, each of which has to stand between two digits. -/
def joinDigits : List Char → Option (List Char)
  | [] => some []
  | '_' :: _ => none
  | c :: '_' :: d :: r =>
    if c.isDigit && d.isDigit then (joinDigits (d :: r)).map (c :: ·) else none
  | c :: r => (joinDigits r).map (c :: ·)

/-- Whether a sign stands in front that makes the number negative, and what
comes after the sign. -/
def takeSign : List Char → Bool × List Char
  | '-' :: r => (true, r)
  | '+' :: r => (false, r)
  | cs => (false, cs)

/-- The value of ASCII digits. -/
def digitsValue (ds : List Char) : Nat :=
  ds.foldl (fun n c => 10 * n + (c.toNat - '0'.toNat)) 0

/-- The value of a whole number, if the text is one. -/
def readInt? (s : String) : Option Int := do
  let cs ← joinDigits (asciiDigits (unpadded s.toList))
  let (negative, ds) := takeSign cs
  if ds.isEmpty || !ds.all Char.isDigit || mostDigits < ds.length then none
  else if negative then some (-(digitsValue ds : Int))
  else some (digitsValue ds)

/-- Why there is no whole number, or no text of one. -/
inductive IntFault where
  | noInteger (raw : String)
  /-- A text has too many digits. -/
  | tooLong (digits : Nat)
  /-- A number has too many digits. -/
  | tooLarge
deriving DecidableEq, Repr

/-- What is said about a whole number that is not there. -/
def IntFault.message : IntFault → String
  | noInteger raw =>
    "invalid literal for int() with base 10: " ++ String.ofList ((Text.quoted raw).toList.take 200)
  | tooLong digits => limit ++ ": value has " ++ toString digits ++ " digits" ++ advice
  | tooLarge => limit ++ advice
where
  limit : String :=
    "Exceeds the limit (" ++ toString mostDigits ++ " digits) for integer string conversion"
  advice : String := "; use sys.set_int_max_str_digits() to increase the limit"

/-- Why a text is no whole number: the digits at its front may be too many. -/
def intFault (s : String) : IntFault :=
  let (_, body) := takeSign (asciiDigits (unpadded s.toList))
  match joinDigits (body.takeWhile fun c => c.isDigit || c == '_') with
  | some ds => if mostDigits < ds.length then .tooLong ds.length else .noInteger s
  | none => .noInteger s

/-- The value of a whole number. -/
def readInt (s : String) : Except IntFault Int :=
  match readInt? s with
  | some n => .ok n
  | none => .error (intFault s)

/-- A whole number in digits. -/
def writeInt (n : Int) : Except IntFault String :=
  if mostDigits < (Nat.toDigits 10 n.natAbs).length then .error .tooLarge else .ok (toString n)

/-- A number in decimal notation. -/
structure Literal where
  negative : Bool
  /-- The digits on both sides of the point. -/
  digits : List Char
  /-- How far the point is to be moved to the right from their end. -/
  exponent : Int

/-- The exponent in a text that is empty or begins with `e`. -/
def readExponent? : List Char → Option Int
  | [] => some 0
  | c :: r =>
    if c = 'e' ∨ c = 'E' then
      let (negative, ds) := takeSign r
      if ds.isEmpty || !ds.all Char.isDigit then none
      else if negative then some (-(digitsValue ds : Int))
      else some (digitsValue ds)
    else none

/-- A text after its sign, as a literal. -/
def readUnsigned? (negative : Bool) (cs : List Char) : Option Literal :=
  let whole := cs.takeWhile Char.isDigit
  let (part, rest) :=
    match cs.dropWhile Char.isDigit with
    | '.' :: r => (r.takeWhile Char.isDigit, r.dropWhile Char.isDigit)
    | r => ([], r)
  if whole.isEmpty && part.isEmpty then none
  else (readExponent? rest).map fun e => ⟨negative, whole ++ part, e - part.length⟩

namespace Literal

/-- The size of a literal. Exponents beyond the range of floats are not worked
out. -/
def magnitude (l : Literal) : Float :=
  let n := digitsValue l.digits
  let last : Int := (Nat.toDigits 10 n).length + l.exponent
  if n = 0 then 0.0
  else if 400 < last then 1.0 / 0.0
  else if last < -400 then 0.0
  else Float.ofScientific n (decide (l.exponent < 0)) l.exponent.natAbs

/-- The float nearest to a literal. -/
def toFloat (l : Literal) : Float :=
  if l.negative then -l.magnitude else l.magnitude

end Literal

/-- The value of a floating-point number, if the text is one. -/
def readFloat? (s : String) : Option Float := do
  let cs ← joinDigits (asciiDigits (unpadded s.toList))
  let (negative, body) := takeSign cs
  let lower := String.ofList (body.map Char.toLower)
  if lower = "inf" ∨ lower = "infinity" then
    some (if negative then -1.0 / 0.0 else 1.0 / 0.0)
  else if lower = "nan" then some (0.0 / 0.0)
  else (readUnsigned? negative body).map Literal.toFloat

end ScriptedMaze.Decimal
