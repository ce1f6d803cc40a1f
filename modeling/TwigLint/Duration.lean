import TwigLint.Number.Double
import TwigLint.Text.Basic

/-! # Durations

Spans of time in nanoseconds, written as decimal numbers with units, such as `1h2m3.5s`.
-/

namespace TwigLint.Duration

/-- Why a text is no duration. -/
inductive Fault where
  | malformed
  | noUnit
  | unknownUnit (unit : Text)
  deriving DecidableEq, Repr

/-- A text in quotes, every byte outside printable ASCII in hexadecimal. -/
def shown (t : Text) : Text :=
  let byte (b : UInt8) : Text :=
    if b < ' ' || 0x80 ≤ b then "\\x" ++ Text.hexPadded 2 b.toNat
    else if b == '"' || b == '\\' then ['\\', b]
    else [b]
  "\"" ++ t.flatMap byte ++ "\""

/-- The wording of a fault in a text. -/
def Fault.message (t : Text) : Fault → Text
  | .malformed => "time: invalid duration " ++ shown t
  | .noUnit => "time: missing unit in duration " ++ shown t
  | .unknownUnit unit => "time: unknown unit " ++ shown unit ++ " in duration " ++ shown t

/-- Nanoseconds in each unit. -/
def units : List (Text × Nat) :=
  [("ns", 1), ("us", 1000), ("µs", 1000), ("μs", 1000), ("ms", 1000000), ("s", 1000000000),
    ("m", 60000000000), ("h", 3600000000000)]

/-- The greatest magnitude of a duration. -/
def limit : Nat := 0x8000000000000000

/-- The digits of a fraction that count, and the power of ten they are out of: as many as a 64-bit
number can hold. -/
def fractionPart (t : Text) : Nat × Nat :=
  let step (acc : Nat × Nat × Bool) (b : UInt8) : Nat × Nat × Bool :=
    let (n, scale, full) := acc
    if full || (limit - 1) / 10 < n then (n, scale, true)
    else
      let next := 10 * n + (b.toNat - 48)
      if limit < next then (n, scale, true) else (next, 10 * scale, false)
  let (n, scale, _) := t.foldl step (0, 1, false)
  (n, scale)

/-- The fraction `n / outOf` of a unit in whole nanoseconds, computed with doubles. -/
def fractionOf (unit n outOf : Nat) : Nat :=
  ((Double.ofInt n).mul (.ofRatio false unit outOf)).toInt64.toNat

/-- The sum of numbers with units, read onto `total`.  It is kept in 64 bits, and each step has to
stay within the limit. -/
def terms : Nat → Text → Nat → Except Fault Nat
  | 0, _, total => .ok total
  | _ + 1, [], total => .ok total
  | fuel + 1, b :: rest, total =>
    let t := b :: rest
    if b != '.' && !Text.isDigit b then .error .malformed
    else
      let whole := t.takeWhile Text.isDigit
      let t := t.dropWhile Text.isDigit
      let (fraction, t) : Text × Text := match t with
        | p :: r =>
          if p == '.' then (r.takeWhile Text.isDigit, r.dropWhile Text.isDigit) else ([], t)
        | [] => ([], [])
      let value := Text.digitsValue 0 whole
      if limit < value then .error .malformed
      else if whole.isEmpty && fraction.isEmpty then .error .malformed
      else
        let unit := t.takeWhile fun (c : UInt8) => c != '.' && !Text.isDigit c
        let t := t.drop unit.length
        if unit.isEmpty then .error .noUnit
        else
          match units.lookup unit with
          | none => .error (.unknownUnit unit)
          | some scale =>
            let (n, outOf) := fractionPart fraction
            let term := value * scale + fractionOf scale n outOf
            let sum := (total + term) % 0x10000000000000000
            if limit < value * scale || limit < term || limit < sum then .error .malformed
            else terms fuel t sum

/-- The nanoseconds of a duration with an optional sign. -/
def parse (t : Text) : Except Fault Int :=
  let (negative, rest) : Bool × Text := match t with
    | b :: r => if b == '-' then (true, r) else if b == '+' then (false, r) else (false, t)
    | [] => (false, [])
  if rest == "0" then .ok 0
  else if rest.isEmpty then .error .malformed
  else
    match terms (rest.length + 1) rest 0 with
    | .error fault => .error fault
    | .ok n =>
      if negative then .ok (-(n : Int))
      else if limit ≤ n then .error .malformed
      else .ok n

/-- The nanoseconds of a duration. -/
def read? (t : Text) : Option Int := (parse t).toOption

end TwigLint.Duration
