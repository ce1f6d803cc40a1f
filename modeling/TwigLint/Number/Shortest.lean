import TwigLint.Number.Double
import TwigLint.Text.Basic

/-! # Shortest decimal form of a double

`Double.shortest` finds the fewest digits that read back as the same double, and among those the
nearest to it.  `FloatStyle` holds the choices of one output format on top of these digits.
-/

namespace TwigLint

namespace Double

/-- `10 ^ e` as a quotient of naturals. -/
def tenPower (e : Int) : Nat × Nat :=
  if 0 ≤ e then (Nat.pow 10 e.toNat, 1) else (1, Nat.pow 10 (-e).toNat)

/-- Number of decimal digits of a positive natural number. -/
def digitCount (n : Nat) : Nat := (Nat.toDigits 10 n).length

/-- The exponent `k` with `10 ^ (k - 1) ≤ num / den < 10 ^ k`, for positive `num` and `den`. -/
def pointPosition (num den : Nat) : Int :=
  if den ≤ num then digitCount (num / den)
  else
    let s := digitCount (den / num)
    let j := if den ≤ num * Nat.pow 10 (s - 1) then s - 1 else s
    1 - (j : Int)

/-- The interval of reals that read as the double `m · 2 ^ e`, in quarters of `2 ^ e`; its ends
belong to it when `m` is even. -/
structure Interval where
  low : Nat
  value : Nat
  high : Nat
  closed : Bool

def interval (x : Double) : Interval :=
  let m := x.mantissa
  let atPower := m = 1 <<< 52 && 2 ≤ x.magnitude >>> 52
  { low := 4 * m - (if atPower then 1 else 2)
    value := 4 * m
    high := 4 * m + 2
    closed := m % 2 = 0 }

/-- The decimal `d · 10 ^ e` that lies in the interval and is nearest to its value among the two
neighbours of the value on the grid of `10 ^ e`. -/
def onGrid? (i : Interval) (unit : Nat × Nat) (e : Int) : Option Nat :=
  let (a, b) := tenPower e
  -- one grid step is `step` and one quarter is `quarter`, over a common denominator
  let step := a * unit.2
  let quarter := unit.1 * b
  let d := i.value * quarter / step
  let below := if i.closed then i.low * quarter ≤ d * step else i.low * quarter < d * step
  let above :=
    if i.closed then (d + 1) * step ≤ i.high * quarter else (d + 1) * step < i.high * quarter
  let remainder := i.value * quarter - d * step
  if below && above then
    if 2 * remainder < step then some d
    else if step < 2 * remainder then some (d + 1)
    else if d % 2 = 0 then some d else some (d + 1)
  else if below then some d
  else if above then some (d + 1)
  else none

/-- The first grid, from `n` digits on, that has a decimal in the interval. -/
def firstGrid (i : Interval) (unit : Nat × Nat) (k : Int) : (fuel n : Nat) → Nat × Int
  | 0, _ => (0, 0)
  | fuel + 1, n =>
    match onGrid? i unit (k - n) with
    | some d => (d, k - n)
    | none => firstGrid i unit k fuel (n + 1)

/-- Digits without trailing zeros and the power of ten of the last one. -/
def dropZeros : (fuel : Nat) → Nat × Int → Nat × Int
  | 0, p => p
  | fuel + 1, (d, e) => if d ≠ 0 && d % 10 = 0 then dropZeros fuel (d / 10, e + 1) else (d, e)

/-- For a finite nonzero double, the shortest decimal `d · 10 ^ e` that reads back as it. -/
def shortest (x : Double) : Nat × Int :=
  let i := x.interval
  let q := x.exponent - 2
  let unit := if 0 ≤ q then (1 <<< q.toNat, 1) else (1, 1 <<< (-q).toNat)
  let k := pointPosition (i.value * unit.1) unit.2
  dropZeros 20 (firstGrid i unit k 18 1)

end Double

/-- How an output format writes the digits of a double. -/
structure FloatStyle where
  /-- Decimal exponents from `least` up to, not including, `most` are written positionally. -/
  least : Int
  most : Int
  /-- Least number of digits of an exponent. -/
  exponentWidth : Nat
  infinity : Text
  negativeInfinity : Text
  nan : Text

namespace FloatStyle

/-- Exponent form below `10 ^ -4` and from `10 ^ 6` on, with at least two exponent digits. -/
def general : FloatStyle := ⟨-4, 6, 2, "+Inf", "-Inf", "NaN"⟩

/-- Exponent form below `10 ^ -6` and from `10 ^ 21` on, with a plain exponent. -/
def json : FloatStyle := ⟨-6, 21, 1, "+Inf", "-Inf", "NaN"⟩

/-- Digits `ds` with the decimal point after the first `point` of them. -/
def positional (ds : Text) (point : Int) : Text :=
  if point ≤ 0 then "0." ++ List.replicate (-point).toNat ('0' : UInt8) ++ ds
  else if ds.length ≤ point.toNat then ds ++ List.replicate (point.toNat - ds.length) ('0' : UInt8)
  else ds.take point.toNat ++ "." ++ ds.drop point.toNat

/-- One digit before the point, and a signed exponent. -/
def scientific (width : Nat) (ds : Text) (e : Int) : Text :=
  let mantissa := if ds.length ≤ 1 then ds else ds.take 1 ++ "." ++ ds.drop 1
  let digits := Text.ofNat e.natAbs
  mantissa ++ (if e < 0 then "e-" else "e+") ++
    List.replicate (width - digits.length) ('0' : UInt8) ++ digits

/-- The text of a double. -/
def render (s : FloatStyle) (x : Double) : Text :=
  if x.isNaN then s.nan
  else if x.isInfinite then (if x.isNegative then s.negativeInfinity else s.infinity)
  else
    let sign : Text := if x.isNegative then "-" else ""
    if x.magnitude = 0 then sign ++ "0"
    else
      let (d, e) := x.shortest
      let ds := Text.ofNat d
      let lead := e + ds.length - 1
      sign ++
        if lead < s.least || s.most ≤ lead then scientific s.exponentWidth ds lead
        else positional ds (lead + 1)

/-- The text of a double with a fixed number of decimal places. -/
def fixed (places : Nat) (x : Double) : Text :=
  if !x.isFinite then general.render x
  else
    let (num, den) := x.toRatio
    let digits := Text.ofNat (Double.roundDiv (num.natAbs * Nat.pow 10 places) den)
    let padded := List.replicate (places + 1 - digits.length) ('0' : UInt8) ++ digits
    let whole := padded.length - places
    let sign : Text := if x.isNegative then "-" else ""
    let fraction : Text := if places = 0 then "" else "." ++ padded.drop whole
    sign ++ padded.take whole ++ fraction

end FloatStyle

end TwigLint
