import TwigLint.Number.Double
import TwigLint.Text.Basic

/-! # Numerals

Reading floating-point numerals, decimal or hexadecimal, and integer numerals with a base mark.
-/

namespace TwigLint

/-- A numeral `digits · base ^ exponent` with a sign, the base being two or ten. -/
structure Numeral where
  negative : Bool
  digits : Nat
  exponent : Int
  binary : Bool

namespace Numeral

/-- A numeral with a leading power of two beyond this bound is infinite or zero in any case. -/
def sizeBound : Int := 40000

/-- The double nearest to a numeral. -/
def toDouble (n : Numeral) : Double :=
  let size : Int := Nat.log2 n.digits + (if n.binary then 1 else 3) * n.exponent
  let base := if n.binary then 2 else 10
  if n.digits = 0 then .ofMagnitude n.negative 0
  else if sizeBound < size then .infinity n.negative
  else if size < -sizeBound then .ofMagnitude n.negative 0
  else if 0 ≤ n.exponent then .ofRatio n.negative (n.digits * Nat.pow base n.exponent.toNat) 1
  else .ofRatio n.negative n.digits (Nat.pow base (-n.exponent).toNat)

/-- The decimal `whole.fraction`, both given by their digits. -/
def ofDigits (whole fraction : Text) : Numeral :=
  ⟨false, Text.digitsValue (Text.digitsValue 0 whole) fraction, -(fraction.length : Int), false⟩

/-- The digits of a base, without the underscores between them. -/
def digitValue? (base : Nat) (b : UInt8) : Option Nat :=
  (Text.hexValue? b).filter (· < base)

/-- A nonempty string of digits in a base. -/
def natInBase? (base : Nat) (t : Text) : Option Nat :=
  if t.isEmpty then none
  else t.foldl (fun acc b => do return base * (← acc) + (← digitValue? base b)) (some 0)

/-- The base told by an optional mark, `0x`, `0o`, `0b`, or a leading zero for octal, and the digits
behind it. -/
def splitBase : Text → Nat × Text
  | a :: b :: t =>
    if a == '0' then
      let mark := Text.toLower b
      if mark == 'x' then (16, t)
      else if mark == 'o' then (8, t)
      else if mark == 'b' then (2, t)
      else (8, b :: t)
    else (10, a :: b :: t)
  | t => (10, t)

/-- A natural number with an optional base mark. -/
def markedNat? (t : Text) : Option Nat :=
  let (base, digits) := splitBase t
  natInBase? base digits

/-- The sign in front of a numeral, and the rest. -/
def splitSign : Text → Bool × Text
  | [] => (false, [])
  | b :: t => if b == '-' then (true, t) else if b == '+' then (false, t) else (false, b :: t)

/-- An integer with an optional sign and base mark. -/
def markedInt? (t : Text) : Option Int :=
  let (negative, rest) := splitSign t
  (markedNat? rest).map fun n => if negative then -(n : Int) else n

/-- What stood last while underscores are checked. -/
inductive Seen where
  | start
  | digit
  | underscore
  | other
  deriving DecidableEq

/-- Every underscore stands between two digits, the base mark counting as a digit. -/
def underscoresSeparate (hex : Bool) : Seen → Text → Bool
  | seen, [] => seen != .underscore
  | seen, b :: t =>
    if Text.isDigit b || (hex && (Text.hexValue? b).isSome) then underscoresSeparate hex .digit t
    else if b == '_' then seen == .digit && underscoresSeparate hex .underscore t
    else seen != .underscore && underscoresSeparate hex .other t

/-- Underscores are allowed in a numeral only between digits. -/
def underscoresOk (t : Text) : Bool :=
  match (splitSign t).2 with
  | a :: b :: rest =>
    let mark := Text.toLower b
    if a == '0' && (mark == 'x' || mark == 'o' || mark == 'b') then
      underscoresSeparate (mark == 'x') .digit rest
    else underscoresSeparate false .start (a :: b :: rest)
  | rest => underscoresSeparate false .start rest

/-- Why a text is no integer of 64 bits. -/
inductive IntFault where
  | malformed
  | outOfRange
  deriving DecidableEq, Repr

def IntFault.message : IntFault → Text
  | malformed => "invalid syntax"
  | outOfRange => "value out of range"

/-- The digits in front of a text exceed 64 bits, so that nothing behind them matters. -/
def overflows (base : Nat) (underscores : Bool) (t : Text) : Bool :=
  let leading := t.takeWhile fun b => (digitValue? base b).isSome || (underscores && b == '_')
  0x10000000000000000 ≤ (natInBase? base (leading.filter (· != '_'))).getD 0

/-- An integer of 64 bits, or why it is none. -/
def checkInt (tooLarge : Bool) (n? : Option Int) : Except IntFault Int :=
  match n? with
  | some n => if Text.isInt64 n then .ok n else .error .outOfRange
  | none => .error (if tooLarge then .outOfRange else .malformed)

/-- A decimal integer of 64 bits. -/
def readInt (t : Text) : Except IntFault Int :=
  checkInt (overflows 10 false (splitSign t).2) t.toInt?

/-- An integer of 64 bits with an optional base mark and underscores between digits. -/
def readMarkedInt (t : Text) : Except IntFault Int :=
  let (base, digits) := splitBase (splitSign t).2
  checkInt (overflows base true digits)
    (if underscoresOk t then markedInt? (t.filter (· != '_')) else none)

/-- The signed exponent after its mark. -/
def exponent? (t : Text) : Option Int :=
  let (negative, ds) := splitSign t
  (Text.toNat? ds).map fun n => if negative then -(n : Int) else n

/-- An unsigned floating-point numeral without underscores, `isDigit` and `mark` telling digits and
the exponent mark of its base. -/
def magnitude? (base : Nat) (mark : UInt8) (exponentRequired : Bool) (t : Text) :
    Option (Nat × Nat × Option Int) :=
  let isDigit b := (digitValue? base b).isSome
  let whole := t.takeWhile isDigit
  let rest := t.dropWhile isDigit
  let fraction := match rest with
    | b :: r => if b == '.' then r.takeWhile isDigit else []
    | [] => []
  let rest := match rest with
    | b :: r => if b == '.' then r.dropWhile isDigit else b :: r
    | [] => []
  match natInBase? base (whole ++ fraction), rest with
  | none, _ => none
  | some n, [] => if exponentRequired then none else some (n, fraction.length, none)
  | some n, b :: r =>
    if Text.toLower b == mark then (exponent? r).map fun e => (n, fraction.length, some e)
    else none

/-- A decimal numeral, or a hexadecimal one with a binary exponent. -/
def read? (t : Text) : Option Numeral :=
  if !underscoresOk t then none
  else
    let (negative, rest) := splitSign (t.filter (· != '_'))
    match rest with
    | a :: b :: hex =>
      if a == '0' && Text.toLower b == 'x' then
        (magnitude? 16 'p' true hex).map fun (n, places, e) =>
          ⟨negative, n, e.getD 0 - 4 * (places : Int), true⟩
      else decimal negative rest
    | _ => decimal negative rest
where
  decimal (negative : Bool) (t : Text) : Option Numeral :=
    (magnitude? 10 'e' false t).map fun (n, places, e) =>
      ⟨negative, n, e.getD 0 - (places : Int), false⟩

end Numeral

/-- A floating-point numeral or one of the words for infinity and NaN; none when the text is no
such numeral or the number is too large. -/
def Double.read? (t : Text) : Option Double :=
  let (negative, rest) := Numeral.splitSign t
  let word := rest.map Text.toLower
  if word == "inf" || word == "infinity" then some (.infinity negative)
  else if word == "nan" && rest == t then some .nan
  else do
    let x := (← Numeral.read? t).toDouble
    if x.isInfinite then none else some x

end TwigLint
