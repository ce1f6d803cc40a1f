import TwigLint.Number.Numeral
import TwigLint.Number.Shortest
import TwigLint.Yaml.Node
import TwigLint.Timestamp

/-! # The values of plain scalars

A scalar without quotes and tag is a number, a truth value, a date or null if it looks like one, and
a string otherwise.
-/

namespace TwigLint.Yaml

/-- The value of a scalar. -/
inductive ScalarValue where
  | null
  | bool (b : Bool)
  | int (n : Int)
  | float (x : Double)
  | timestamp (t : Timestamp)
  | text (t : Text)

namespace ScalarValue

/-- The tag that goes with a value. -/
def tag : ScalarValue → Tag
  | .null => .null
  | .bool _ => .bool
  | .int _ => .int
  | .float _ => .float
  | .timestamp _ => .timestamp
  | .text _ => .str

/-- The words with a value. -/
def ofWord? (t : Text) : Option ScalarValue :=
  let is (ws : List String) : Bool := ws.any fun w => Text.ofString w == t
  if is ["", "~", "null", "Null", "NULL"] then some .null
  else if is ["true", "True", "TRUE"] then some (.bool true)
  else if is ["false", "False", "FALSE"] then some (.bool false)
  else if is [".nan", ".NaN", ".NAN"] then some (.float .nan)
  else if is [".inf", ".Inf", ".INF", "+.inf", "+.Inf", "+.INF"] then
    some (.float (.infinity false))
  else if is ["-.inf", "-.Inf", "-.INF"] then some (.float (.infinity true))
  else none

/-- An integer in 64 bits, signed, or unsigned when it has no sign. -/
def ofInt? (t : Text) : Option ScalarValue := do
  let n ← Numeral.markedInt? t
  let signed := t.head? == some '-' || t.head? == some '+'
  if Text.isInt64 n || (!signed && n < 0x10000000000000000) then some (.int n) else none

/-- An integer whose sign stands between the base mark and the digits. -/
def ofSignedTail? (mark : Text) (base : Nat) (t : Text) : Option ScalarValue := do
  let (negative, digits) := Numeral.splitSign (← Text.after? mark t)
  let n ← Numeral.natInBase? base digits
  let n : Int := if negative then -(n : Int) else n
  if Text.isInt64 n then some (.int n) else none

/-- Digits with an optional sign, point and exponent. -/
def isFloatForm (t : Text) : Bool :=
  let rest := (Numeral.splitSign t).2
  let whole := rest.takeWhile Text.isDigit
  let rest := rest.dropWhile Text.isDigit
  let (point, fraction, rest) := match rest with
    | b :: r => if b == '.' then (true, r.takeWhile Text.isDigit, r.dropWhile Text.isDigit)
      else (false, [], b :: r)
    | [] => (false, [], [])
  let mantissa := !whole.isEmpty || (point && !fraction.isEmpty)
  let exponent := match rest with
    | [] => true
    | b :: r => Text.toLower b == 'e' && (Text.toNat? (Numeral.splitSign r).2).isSome
  mantissa && exponent

/-- A floating-point numeral that fits in a double. -/
def ofFloat? (t : Text) : Option ScalarValue := (Double.read? t).map .float

/-- The value of a scalar that starts with a digit or a sign.  Underscores in numbers are
ignored. -/
def ofNumber? (dates : Bool) (t : Text) : Option ScalarValue :=
  let digits : Text := t.filter fun b => b != '_'
  (if dates then (Timestamp.read? t).map .timestamp else none)
    <|> ofInt? digits
    <|> (if isFloatForm digits then ofFloat? digits else none)
    <|> ofSignedTail? "0b" 2 digits
    <|> ofSignedTail? "0o" 8 digits

/-- The value of a plain scalar. -/
def ofPlain (dates : Bool) (t : Text) : ScalarValue :=
  let value? : Option ScalarValue := match t.head? with
    | none => some .null
    | some b =>
      if Text.isDigit b || b == '+' || b == '-' then ofWord? t <|> ofNumber? dates t
      else if b == '.' then ofWord? t <|> ofFloat? t
      else ofWord? t
  value?.getD (.text t)

end ScalarValue

/-- A scalar cannot be read as the kind of value it is tagged as. -/
structure TagMismatch where
  found : Tag
  value : Text
  wanted : Tag

/-- The message of a mismatch. -/
def TagMismatch.message (m : TagMismatch) : Text :=
  "cannot decode " ++ m.found.label ++ " \x60" ++ m.value ++ "\x60 as a " ++ m.wanted.label

/-- The value of a scalar with a tag.  A tag of another kind leaves the text as it is, and an
integer may be tagged as a floating-point number. -/
def resolve (tag : Tag) (t : Text) : Except TagMismatch ScalarValue :=
  match tag with
  | .bool | .int | .float | .null | .timestamp =>
    let value := ScalarValue.ofPlain (tag == .timestamp) t
    if value.tag == tag then .ok value
    else
      match tag, value with
      | .float, .int n =>
        if Text.isInt64 n then .ok (.float (Double.ofInt n)) else .error ⟨value.tag, t, tag⟩
      | _, _ => .error ⟨value.tag, t, tag⟩
  | _ => .ok (.text t)

/-- The tag of a scalar for which none is written. -/
def implicitTag (style : ScalarStyle) (t : Text) : Tag :=
  match style with
  | .plain => if t == "<<" then .merge else (ScalarValue.ofPlain true t).tag
  | _ => .str

end TwigLint.Yaml
