/-!
Double precision numbers as their 64 bits: a sign, eleven exponent bits and 52 fraction bits.
Every finite double is a whole number of units, one unit being 2^-1074, the smallest positive
double; so exact statements about doubles are statements about natural numbers. Every bit
pattern is kept as it is, those of the many NaNs included.

Sum, difference, product and quotient round to nearest; the remainder is exact and has the sign of
the dividend. The order is total: it runs through the bit patterns from the negative NaNs to the
positive ones, so that the negative zero lies below the positive one and every NaN equals itself
alone.
-/

namespace RegisterMachine

structure Double where
  bits : UInt64
deriving DecidableEq, Repr, Inhabited

namespace Double

abbrev pow2 (k : Nat) : Nat := Nat.pow 2 k

def isNegative (x : Double) : Bool := pow2 63 ≤ x.bits.toNat

def magnitude (x : Double) : Nat := x.bits.toNat % pow2 63

def exponentField (x : Double) : Nat := x.magnitude / pow2 52

def fractionField (x : Double) : Nat := x.magnitude % pow2 52

/-- The magnitude of an infinity; the NaNs lie above it. -/
def infiniteMagnitude : Nat := 2047 * pow2 52

def isNaN (x : Double) : Bool := infiniteMagnitude < x.magnitude

def isInfinite (x : Double) : Bool := x.magnitude = infiniteMagnitude

def isZero (x : Double) : Bool := x.magnitude = 0

/-- The significant bits, with the leading one that normal numbers leave unwritten. -/
def significand (x : Double) : Nat :=
  if x.exponentField = 0 then x.fractionField else pow2 52 + x.fractionField

def scale (x : Double) : Nat := x.exponentField - 1

/-- The absolute value of a finite double, in units of 2^-1074. -/
def units (x : Double) : Nat := x.significand * pow2 x.scale

def unitsPerOne : Nat := pow2 1074

def ofMagnitude (negative : Bool) (magnitude : Nat) : Double :=
  ⟨UInt64.ofNat (if negative then pow2 63 + magnitude else magnitude)⟩

/-- The quotient by `2 ^ k` rounded to nearest, a tie to the even neighbour. -/
def roundShift (n k : Nat) : Nat :=
  let kept := n / pow2 k
  let dropped := n % pow2 k
  if pow2 k < 2 * dropped then kept + 1
  else if 2 * dropped = pow2 k then kept + kept % 2
  else kept

/-- The double nearest to a number of units. Dropping `k` bits leaves a significand of 53 bits,
whose leading one carries into the exponent field; a round up to 54 bits carries once more. -/
def nearest (negative : Bool) (u : Nat) : Double :=
  let k := u.log2 - 52
  ofMagnitude negative (min (k * pow2 52 + roundShift u k) infiniteMagnitude)

def ofInt (n : Int) : Double := nearest (n < 0) (n.natAbs * unitsPerOne)

/-- Rounded toward zero. An infinity counts as the first power of two out of range. -/
def truncate (x : Double) : Int :=
  let whole : Nat := x.units / unitsPerOne
  if x.isNegative then -whole else whole

def saturate (low high : Int) (x : Double) : Int :=
  if x.isNaN then 0 else max low (min high x.truncate)

def toFloat (x : Double) : Float := Float.ofBits x.bits

def ofFloat (x : Float) : Double := ⟨x.toBits⟩

def add (x y : Double) : Double := ofFloat (x.toFloat + y.toFloat)

def sub (x y : Double) : Double := ofFloat (x.toFloat - y.toFloat)

def mul (x y : Double) : Double := ofFloat (x.toFloat * y.toFloat)

def div (x y : Double) : Double := ofFloat (x.toFloat / y.toFloat)

def quietNaN : Double := ⟨0x7ff8000000000000⟩

/-- What is left of `x` after `y` was taken away a whole number of times, rounded toward zero.
The remainder of the units has no more significant bits than `y`, so nothing is rounded. -/
def rem (x y : Double) : Double :=
  if x.isNaN || y.isNaN || x.isInfinite || y.isZero then quietNaN
  else if y.isInfinite then x
  else nearest x.isNegative (x.units % y.units)

/-- Equality of the numbers denoted: the two zeros are equal and a NaN equals nothing. -/
def numericEq (x y : Double) : Bool :=
  !x.isNaN && !y.isNaN && (x == y || (x.isZero && y.isZero))

/-- The position of a bit pattern in the total order. -/
def rank (x : Double) : Int :=
  if x.isNegative then -(x.magnitude : Int) - 1 else x.magnitude

def compare (x y : Double) : Ordering := Ord.compare x.rank y.rank
end Double

end RegisterMachine
