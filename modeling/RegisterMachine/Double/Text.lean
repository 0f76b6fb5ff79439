import RegisterMachine.Double.Basic

/-!
The shortest decimal that reads back as a given double. The decimals of `n` digits form a grid;
the first grid with a point that rounds to the double is taken, and of two such points the
nearer, a tie going to the larger. Everything is decided in whole quarters of a unit, because
half the gap to the next lower double may be a quarter of the gap above it.

The text writes these digits positionally, with at least one on each side of the point, as long as
the number is neither below 10^-4 nor at least 10^16; otherwise with one digit before the point and
an exponent.
-/

namespace RegisterMachine

/-- The decimal `0.d₁d₂…dₙ · 10 ^ point`, with neither a leading nor a trailing zero. -/
structure Decimal where
  digits : List Char
  point : Int
deriving DecidableEq, Repr

namespace Double

def quartersPerOne : Nat := 4 * unitsPerOne

/-- The reals that round to a double, in quarters of a unit. The ends belong to it when the
significand is even. -/
structure Basin where
  low : Nat
  middle : Nat
  high : Nat
  closed : Bool

/-- Below the smallest significand of an exponent the gap is half as wide. -/
def basin (x : Double) : Basin where
  low := 4 * x.units - (if x.significand = pow2 52 then 1 else 2) * pow2 x.scale
  middle := 4 * x.units
  high := 4 * x.units + 2 * pow2 x.scale
  closed := x.significand % 2 = 0

abbrev pow10 (k : Nat) : Nat := Nat.pow 10 k

/-- A grid of decimals: the multiples of `10 ^ exponent`, kept as a fraction. -/
structure Grid where
  num : Nat
  den : Nat

def Grid.ofExponent (e : Int) : Grid := ⟨pow10 e.toNat, pow10 (-e).toNat⟩

def Grid.scaled (g : Grid) (c : Nat) : Nat := c * g.num * quartersPerOne

def Basin.holds (b : Basin) (g : Grid) (c : Nat) : Bool :=
  if b.closed then b.low * g.den ≤ g.scaled c && g.scaled c ≤ b.high * g.den
  else b.low * g.den < g.scaled c && g.scaled c < b.high * g.den

/-- The grid point in the basin that lies nearest to its middle, of two equally near the upper. -/
def Basin.pick? (b : Basin) (g : Grid) : Option Nat :=
  let c := b.middle * g.den / (g.num * quartersPerOne)
  match b.holds g c, b.holds g (c + 1) with
  | true, true =>
    if g.scaled (c + 1) - b.middle * g.den ≤ b.middle * g.den - g.scaled c
    then some (c + 1) else some c
  | true, false => some c
  | false, true => some (c + 1)
  | false, false => none

/-- The least `p` with `x < 10 ^ p`, read off the length of `x · 10 ^ 340`. -/
def decimalPoint (x : Double) : Int :=
  (Nat.toDigits 10 (x.units * pow10 340 / unitsPerOne)).length - 340

def trimZeros (ds : List Char) : List Char := (ds.reverse.dropWhile (· == '0')).reverse

/-- Seventeen digits always suffice, and a double that is not zero has a first grid. -/
def shortest (x : Double) : Decimal :=
  let point := x.decimalPoint
  let found := (List.range 17).findSome? fun (n : Nat) =>
    (x.basin.pick? (Grid.ofExponent (point - (n + 1)))).map fun c => (n + 1, c)
  match found with
  | none => ⟨[], point⟩
  | some (n, c) =>
    let ds := Nat.toDigits 10 c
    ⟨trimZeros ds, point + (ds.length - n : Int)⟩

end Double

structure Layout where
  firstPoint : Int
  lastPoint : Int

def Layout.standard : Layout := ⟨-3, 16⟩

namespace Decimal

def zeros (n : Nat) : List Char := List.replicate n '0'

def positional (d : Decimal) : String :=
  if d.point ≤ 0 then String.ofList ('0' :: '.' :: zeros (-d.point).toNat ++ d.digits)
  else
    let p := d.point.toNat
    let whole := d.digits.take p ++ zeros (p - d.digits.length)
    let rest := d.digits.drop p
    String.ofList (whole ++ '.' :: (if rest.isEmpty then ['0'] else rest))

def scientific (d : Decimal) : String :=
  let head := String.ofList (d.digits.take 1)
  let tail := d.digits.drop 1
  let point := if tail.isEmpty then "" else "." ++ String.ofList tail
  head ++ point ++ "e" ++ toString (d.point - 1)

def text (layout : Layout) (d : Decimal) : String :=
  if layout.firstPoint ≤ d.point ∧ d.point ≤ layout.lastPoint then d.positional else d.scientific

end Decimal

namespace Double

def text (x : Double) : String :=
  if x.isNaN then "NaN"
  else
    let body :=
      if x.isInfinite then "inf"
      else if x.isZero then "0.0"
      else x.shortest.text .standard
    if x.isNegative then "-" ++ body else body

end Double

end RegisterMachine
