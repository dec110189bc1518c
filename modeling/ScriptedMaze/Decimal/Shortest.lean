/-!
# The shortest decimal of a binary number

A binary floating-point number stands for all reals that round to it. Of the
decimals among these reals, the ones with the fewest digits are the shortest
that read back as the number, and of those the nearest to the number is chosen.

The number is `m · 2^q` (`Binary`), and the reals that round to it lie within
half a unit of `m`; below a power of two the units are half as long, so that
there the interval ends half as far down. Its ends belong to it if `m` is even,
because a tie is rounded to the even neighbour.

The decimals with `n` digits lie on a grid of step `10^k`. If a point of a grid
lies in the interval at all, so does one of the two points next to the number;
the first grid on which one of them does decides, and of two the nearer is
taken, or the even one where they are equally near (`Binary.shortest`). All of
it is done in whole numbers: a bound `x · 2^(q - 2)`, counted in steps of the
grid, is the fraction `Binary.scaled k x / Binary.unit k`.
-/

namespace ScriptedMaze.Decimal

/-- The number `mantissa · 2^exponent`. -/
structure Binary where
  mantissa : Nat
  exponent : Int
  /-- Whether the next smaller number is half as far away as the next larger. -/
  narrowBelow : Bool
deriving DecidableEq, Repr

/-- The number `digits · 10^exponent`. -/
structure Scaled where
  digits : Nat
  exponent : Int
deriving DecidableEq, Repr

namespace Binary

/-- The numerator of `x · 2^(exponent - 2) / 10^k`. -/
def scaled (b : Binary) (k : Int) (x : Nat) : Nat :=
  x * Nat.pow 2 (b.exponent - 2).toNat * Nat.pow 10 (-k).toNat

/-- The denominator of `x · 2^(exponent - 2) / 10^k`. -/
def unit (b : Binary) (k : Int) : Nat :=
  Nat.pow 2 (2 - b.exponent).toNat * Nat.pow 10 k.toNat

/-- The lower end of the interval, in quarters of the last place. -/
def low (b : Binary) : Nat :=
  if b.narrowBelow then 4 * b.mantissa - 1 else 4 * b.mantissa - 2

/-- The upper end of the interval, in quarters of the last place. -/
def high (b : Binary) : Nat := 4 * b.mantissa + 2

/-- Whether `c · 10^k` reads back as the number. -/
def readsBack (b : Binary) (k : Int) (c : Nat) : Bool :=
  let v := c * b.unit k
  if b.mantissa % 2 = 0 then b.scaled k b.low ≤ v && v ≤ b.scaled k b.high
  else b.scaled k b.low < v && v < b.scaled k b.high

/-- Of the two points of a grid next to the number, the one that reads back and
is nearer. -/
def onGrid? (b : Binary) (k : Int) : Option Nat :=
  let v := b.scaled k (4 * b.mantissa)
  let u := b.unit k
  let c := v / u
  match b.readsBack k c, b.readsBack k (c + 1) with
  | true, true =>
    let down := v - c * u
    let up := (c + 1) * u - v
    if down < up then some c
    else if up < down then some (c + 1)
    else if c % 2 = 0 then some c else some (c + 1)
  | true, false => some c
  | false, true => some (c + 1)
  | false, false => none

/-- The exponent of the first digit of a positive number. -/
def leading (b : Binary) : Int :=
  let above := b.mantissa * Nat.pow 2 b.exponent.toNat
  let below := Nat.pow 2 (-b.exponent).toNat
  let guess : Int := (Nat.toDigits 10 above).length - (Nat.toDigits 10 below).length
  if below * Nat.pow 10 guess.toNat ≤ above * Nat.pow 10 (-guess).toNat then guess
  else guess - 1

/-- Drops zeros at the end of the digits, at most `n` of them. -/
def dropZeros : (n : Nat) → Scaled → Scaled
  | 0, s => s
  | n + 1, s =>
    if s.digits % 10 = 0 then dropZeros n ⟨s.digits / 10, s.exponent + 1⟩ else s

/-- The shortest decimal with at least `n` digits, and with at most `fuel`
more. -/
def shortestFrom (b : Binary) (lead : Int) : (fuel : Nat) → (n : Nat) → Scaled
  | 0, n =>
    let k := lead + 1 - n
    ⟨b.scaled k (4 * b.mantissa) / b.unit k, k⟩
  | fuel + 1, n =>
    let k := lead + 1 - n
    match b.onGrid? k with
    | some c => dropZeros n ⟨c, k⟩
    | none => shortestFrom b lead fuel (n + 1)

/-- The shortest decimal that reads back as a positive number. Seventeen digits
always do. -/
def shortest (b : Binary) : Scaled := shortestFrom b b.leading 17 1

end Binary

end ScriptedMaze.Decimal
