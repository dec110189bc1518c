import ScriptedMaze.Decimal.Shortest

/-!
# Floating-point numbers as text

A number is shown by its shortest decimal that reads back. The point stands
where it belongs as long as the first digit is at most four places behind it and
at most sixteen in front; other numbers are shown with one digit in front of the
point and an exponent (`Layout`). A number that happens to be whole keeps a zero
after the point, so that it is seen not to be an integer, and zero keeps its
sign.
-/

namespace ScriptedMaze.Decimal

/-- Where positional text begins and ends, and how an exponent is written. -/
structure Layout where
  /-- The least exponent of a first digit that is shown positionally. -/
  least : Int := -4
  /-- The first exponent beyond those that are shown positionally. -/
  beyond : Int := 16
  /-- The fewest digits of an exponent. -/
  exponentDigits : Nat := 2

namespace Layout

/-- Digits with a point after the first `whole` of them; zeros fill the places
that are missing. -/
def positional (ds : List Char) (whole : Int) : List Char :=
  if whole ≤ 0 then '0' :: '.' :: List.replicate (-whole).toNat '0' ++ ds
  else if ds.length ≤ whole.toNat then
    ds ++ List.replicate (whole.toNat - ds.length) '0' ++ ['.', '0']
  else ds.take whole.toNat ++ '.' :: ds.drop whole.toNat

/-- An exponent with its sign. -/
def exponentText (l : Layout) (e : Int) : List Char :=
  let ds := Nat.toDigits 10 e.natAbs
  (if e < 0 then '-' else '+') :: List.replicate (l.exponentDigits - ds.length) '0' ++ ds

/-- One digit in front of the point, and an exponent. -/
def scientific (l : Layout) (ds : List Char) (e : Int) : List Char :=
  let mantissa :=
    match ds with
    | d :: d' :: more => d :: '.' :: d' :: more
    | _ => ds
  mantissa ++ 'e' :: l.exponentText e

/-- A decimal as text. -/
def scaledText (l : Layout) (s : Scaled) : List Char :=
  let ds := Nat.toDigits 10 s.digits
  let e := s.exponent + ds.length - 1
  if l.least ≤ e ∧ e < l.beyond then positional ds (e + 1) else l.scientific ds e

end Layout

/-- One more than the largest fraction: there are 52 bits for it. -/
def fractionEnd : Nat := Nat.pow 2 52

/-- The bit that is set in a negative number. -/
def signBit : Nat := Nat.pow 2 63

/-- The number of a positive finite float's bits, the sign aside. -/
def binaryOfBits (bits : Nat) : Binary :=
  let fraction := bits % fractionEnd
  let biased : Nat := bits / fractionEnd % 2048
  if biased = 0 then ⟨fraction, -1074, false⟩
  else ⟨fractionEnd + fraction, (biased : Int) - 1075, fraction = 0 ∧ 1 < biased⟩

/-- A float as text. -/
def floatText (x : Float) : String :=
  let bits := x.toBits.toNat
  let sign := if signBit ≤ bits then "-" else ""
  if x.isNaN then "nan"
  else if x.isInf then sign ++ "inf"
  else if bits % signBit = 0 then sign ++ "0.0"
  else sign ++ String.ofList (({} : Layout).scaledText (binaryOfBits bits).shortest)

end ScriptedMaze.Decimal
