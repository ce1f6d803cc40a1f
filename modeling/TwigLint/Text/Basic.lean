/-! # Byte text

Template sources, definitions and messages are byte strings: they need not be valid UTF-8, and every
column and length counts bytes.  `Text` is the list of those bytes.  String literals and ASCII
character literals are accepted wherever a text or a byte is expected.
-/

namespace TwigLint

/-- A byte string. -/
abbrev Text := List UInt8

namespace Text

/-- The UTF-8 bytes of a string. -/
def ofString (s : String) : Text := s.toUTF8.data.toList

instance : Coe String Text := ⟨ofString⟩

/-- An ASCII character literal stands for its byte. -/
instance : Coe Char UInt8 := ⟨Char.toUInt8⟩

/-- The string with these bytes, when they are valid UTF-8. -/
def toString? (t : Text) : Option String := String.fromUTF8? ⟨t.toArray⟩

/-- Decimal digits of a natural number. -/
def ofNat (n : Nat) : Text := ofString (toString n)

/-- Decimal digits of an integer, with a minus sign when it is negative. -/
def ofInt (n : Int) : Text := ofString (toString n)

/-- The words for the two truth values. -/
def ofBool (b : Bool) : Text := if b then "true" else "false"

/-! ## Byte classes -/

def isDigit (b : UInt8) : Bool := '0' ≤ b && b ≤ '9'

def isLower (b : UInt8) : Bool := 'a' ≤ b && b ≤ 'z'

def isUpper (b : UInt8) : Bool := 'A' ≤ b && b ≤ 'Z'

def isLetter (b : UInt8) : Bool := isLower b || isUpper b

/-- Letters, digits and the underscore. -/
def isWordByte (b : UInt8) : Bool := isLetter b || isDigit b || b == '_'

def toLower (b : UInt8) : UInt8 := if isUpper b then b + 32 else b

def toUpper (b : UInt8) : UInt8 := if isLower b then b - 32 else b

/-- Value of a hexadecimal digit. -/
def hexValue? (b : UInt8) : Option Nat :=
  if isDigit b then some (b.toNat - 48)
  else if 'a' ≤ b && b ≤ 'f' then some (b.toNat - 87)
  else if 'A' ≤ b && b ≤ 'F' then some (b.toNat - 55)
  else none

/-- Lower-case hexadecimal digit of a number below sixteen. -/
def hexDigit (n : Nat) : UInt8 :=
  if n < 10 then (48 + n).toUInt8 else (87 + n).toUInt8

/-- The lowest `width` hexadecimal digits of a number. -/
def hexPadded : (width : Nat) → Nat → Text
  | 0, _ => []
  | w + 1, n => hexPadded w (n / 16) ++ [hexDigit (n % 16)]

/-! ## Order -/

/-- Bytewise lexicographic order. -/
def le : Text → Text → Bool
  | [], _ => true
  | _ :: _, [] => false
  | a :: s, b :: t => a < b || (a == b && le s t)

/-- Ascending bytewise order, equal entries in their given order. -/
def sort (ts : List Text) : List Text := ts.mergeSort le

/-! ## Cutting and searching -/

/-- The text starts with `p`. -/
def startsWith (t p : Text) : Bool := p.isPrefixOf t

/-- The text ends with `p`. -/
def endsWith (t p : Text) : Bool := p.isSuffixOf t

/-- The text after `p`, when it starts with `p`. -/
def after? : (p t : Text) → Option Text
  | [], t => some t
  | _ :: _, [] => none
  | a :: p, b :: t => if a == b then after? p t else none

/-- The text without a leading `p`. -/
def dropPrefix (t p : Text) : Text := (after? p t).getD t

/-- The text without a trailing `p`. -/
def dropSuffix (t p : Text) : Text :=
  if endsWith t p then t.take (t.length - p.length) else t

/-- The bytes before the first occurrence of `p`, and those from there on. -/
def find? (p : Text) : Text → Option (Text × Text)
  | [] => if p.isEmpty then some ([], []) else none
  | b :: t =>
    if startsWith (b :: t) p then some ([], b :: t)
    else (find? p t).map fun (s, r) => (b :: s, r)

/-- The text contains `p`. -/
def includes (t p : Text) : Bool := (find? p t).isSome

/-- The parts of a text between the bytes satisfying `isSep`; one part more than separators. -/
def splitBy (isSep : UInt8 → Bool) : Text → List Text
  | [] => [[]]
  | b :: t =>
    match splitBy isSep t with
    | [] => [[b]]
    | part :: parts => if isSep b then [] :: part :: parts else (b :: part) :: parts

/-- The parts of a text between the occurrences of one byte. -/
def splitOn (sep : UInt8) (t : Text) : List Text := splitBy (· == sep) t

/-- The texts one after another with `sep` between neighbours. -/
def join (sep : Text) : List Text → Text
  | [] => []
  | [t] => t
  | t :: ts => t ++ sep ++ join sep ts

def trimLeft (drop : UInt8 → Bool) (t : Text) : Text := t.dropWhile drop

def trimRight (drop : UInt8 → Bool) (t : Text) : Text := (t.reverse.dropWhile drop).reverse

/-- `n` copies of a text. -/
def repeated (t : Text) (n : Nat) : Text := (List.replicate n t).flatten

/-- Number of occurrences of one byte. -/
def countByte (b : UInt8) (t : Text) : Nat := t.count b

/-- Every CR LF becomes LF. -/
def normalizeNewlines : Text → Text
  | [] => []
  | [b] => [b]
  | b :: c :: t =>
    if b == '\r' && c == '\n' then '\n' :: normalizeNewlines t
    else b :: normalizeNewlines (c :: t)

/-! ## Numerals -/

/-- The number written by decimal digits, read from the left onto `acc`. -/
def digitsValue (acc : Nat) (t : Text) : Nat :=
  t.foldl (fun n b => 10 * n + (b.toNat - 48)) acc

/-- A nonempty string of decimal digits. -/
def toNat? (t : Text) : Option Nat :=
  if !t.isEmpty && t.all isDigit then some (digitsValue 0 t) else none

/-- Decimal digits with an optional sign. -/
def toInt? : Text → Option Int
  | [] => none
  | b :: t =>
    if b == '-' then (toNat? t).map fun n => -(n : Int)
    else if b == '+' then (toNat? t).map fun n => (n : Int)
    else (toNat? (b :: t)).map fun n => (n : Int)

/-- The least and the greatest 64-bit integer. -/
def isInt64 (n : Int) : Bool := -0x8000000000000000 ≤ n && n < 0x8000000000000000

/-- Decimal digits with an optional sign, for a number that fits in 64 bits. -/
def toInt64? (t : Text) : Option Int := (toInt? t).filter isInt64

end Text

end TwigLint
