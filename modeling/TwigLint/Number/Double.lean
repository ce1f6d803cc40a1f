/-! # Double-precision numbers

A double is its 64-bit pattern.  Every operation goes through exact natural-number arithmetic: a
finite double is `mantissa · 2 ^ exponent`, and `ofRatio` rounds an exact quotient to the nearest
double, a tie going to the even mantissa.
-/

namespace TwigLint

/-- A binary floating-point number of 64 bits. -/
structure Double where
  bits : UInt64
  deriving DecidableEq, Repr

namespace Double

/-- Quotient rounded to the nearest integer, a half going to the even one. -/
def roundDiv (num den : Nat) : Nat :=
  let q := num / den
  let twice := 2 * (num % den)
  if twice < den then q
  else if den < twice then q + 1
  else if q % 2 = 0 then q else q + 1

/-- Pattern of infinity without its sign bit. -/
def infinityBits : Nat := 0x7ff <<< 52

def ofMagnitude (negative : Bool) (magnitude : Nat) : Double :=
  ⟨((if negative then 1 <<< 63 else 0) + magnitude).toUInt64⟩

def infinity (negative : Bool) : Double := ofMagnitude negative infinityBits

def nan : Double := ⟨0x7ff8000000000001⟩

def zero : Double := ⟨0⟩

/-- The sign bit is set. -/
def isNegative (x : Double) : Bool := 1 <<< 63 ≤ x.bits.toNat

/-- The pattern without its sign bit. -/
def magnitude (x : Double) : Nat := x.bits.toNat % (1 <<< 63)

def isNaN (x : Double) : Bool := infinityBits < x.magnitude

def isInfinite (x : Double) : Bool := x.magnitude == infinityBits

def isFinite (x : Double) : Bool := x.magnitude < infinityBits

/-- Integer mantissa of a finite double. -/
def mantissa (x : Double) : Nat :=
  let field := x.magnitude >>> 52
  x.magnitude % (1 <<< 52) + if field = 0 then 0 else 1 <<< 52

/-- Exponent of two that belongs to `mantissa`. -/
def exponent (x : Double) : Int := (max (x.magnitude >>> 52) 1 : Nat) - 1075

/-- `num · 2 ^ (-e) / den`, rounded. -/
def roundScaled (num den : Nat) (e : Int) : Nat :=
  if 0 ≤ e then roundDiv num (den <<< e.toNat) else roundDiv (num <<< (-e).toNat) den

/-- The exponent at which `num / den` has a mantissa of 53 bits, bounded below by that of the
smallest double. -/
def scale (num den : Nat) : Int :=
  let e : Int := (Nat.log2 num : Int) - Nat.log2 den - 52
  let tooLarge :=
    if 0 ≤ e then num < den <<< e.toNat <<< 52 else num <<< (-e).toNat < den <<< 52
  max (if tooLarge then e - 1 else e) (-1074)

/-- The double nearest to `num / den`. -/
def ofRatio (negative : Bool) (num den : Nat) : Double :=
  if num = 0 then ofMagnitude negative 0
  else
    let e := scale num den
    let pattern := (e + 1074).toNat <<< 52 + roundScaled num den e
    ofMagnitude negative (min pattern infinityBits)

/-- The double nearest to an integer. -/
def ofInt (n : Int) : Double := ofRatio (n < 0) n.natAbs 1

/-- The exact value `(numerator, denominator)` of a finite double. -/
def toRatio (x : Double) : Int × Nat :=
  let m : Int := if x.isNegative then -(x.mantissa : Int) else x.mantissa
  let e := x.exponent
  if 0 ≤ e then (m * (1 <<< e.toNat : Nat), 1) else (m, 1 <<< (-e).toNat)

/-- Position of a double among all doubles that are not NaN; both zeros have position zero. -/
def rank (x : Double) : Int := if x.isNegative then -(x.magnitude : Int) else x.magnitude

/-- `x < y`; false when either is NaN. -/
def lt (x y : Double) : Bool := !x.isNaN && !y.isNaN && x.rank < y.rank

/-- `x ≤ y`; false when either is NaN. -/
def le (x y : Double) : Bool := !x.isNaN && !y.isNaN && x.rank ≤ y.rank

/-- Sum of two finite doubles. -/
def add (x y : Double) : Double :=
  let (a, b) := x.toRatio
  let (c, d) := y.toRatio
  let s := a * d + c * b
  ofRatio (s < 0) s.natAbs (b * d)

/-- Product of two finite doubles. -/
def mul (x y : Double) : Double :=
  let (a, b) := x.toRatio
  let (c, d) := y.toRatio
  ofRatio (x.isNegative != y.isNegative) (a * c).natAbs (b * d)

/-- The nearest double to the quotient of a finite double by a positive integer. -/
def divNat (x : Double) (n : Nat) : Double :=
  let (a, b) := x.toRatio
  ofRatio x.isNegative a.natAbs (b * n)

/-- Quotient of a finite double by a finite one that is not zero. -/
def div (x y : Double) : Double :=
  let (a, b) := x.toRatio
  let (c, d) := y.toRatio
  ofRatio (x.isNegative != y.isNegative) (a.natAbs * d) (b * c.natAbs)

/-- The integer part as a 64-bit integer.  Anything out of range gives the least one. -/
def toInt64 (x : Double) : Int :=
  let (a, b) := x.toRatio
  let n := a.tdiv b
  let least := -0x8000000000000000
  if x.isFinite && least ≤ n && n < -least then n else least

end Double

end TwigLint
