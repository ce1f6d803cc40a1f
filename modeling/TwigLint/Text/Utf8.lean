import TwigLint.Text.Basic

/-! # Characters of a byte text

A byte text is read as a sequence of characters.  A byte that starts no well-formed UTF-8 sequence
stands for itself, so every text has exactly one reading and no byte is lost.
-/

namespace TwigLint.Text

/-- One unit of a reading: a code point in its shortest encoding, or a byte that encodes none. -/
inductive Unit8 where
  | char (code : Nat)
  | stray (byte : UInt8)
  deriving DecidableEq, Repr

/-- A continuation byte. -/
def isTail (b : UInt8) : Bool := 0x80 ≤ b && b ≤ 0xbf

/-- The bytes allowed after a first byte of a three or four byte sequence exclude overlong forms,
surrogates and code points above U+10FFFF. -/
def secondInRange (a b : UInt8) : Bool :=
  if a == 0xe0 then 0xa0 ≤ b && b ≤ 0xbf
  else if a == 0xed then 0x80 ≤ b && b ≤ 0x9f
  else if a == 0xf0 then 0x90 ≤ b && b ≤ 0xbf
  else if a == 0xf4 then 0x80 ≤ b && b ≤ 0x8f
  else isTail b

/-- The lowest six bits of a continuation byte. -/
def tailBits (b : UInt8) : Nat := b.toNat % 64

/-- The first unit of a text that starts with byte `a`, and the number of further bytes it takes. -/
def firstUnit (a : UInt8) (t : Text) : Unit8 × Nat :=
  if a < 0x80 then (.char a.toNat, 0)
  else if 0xc2 ≤ a && a ≤ 0xdf then
    match t with
    | b :: _ => if isTail b then (.char (a.toNat % 32 * 64 + tailBits b), 1) else (.stray a, 0)
    | _ => (.stray a, 0)
  else if 0xe0 ≤ a && a ≤ 0xef then
    match t with
    | b :: c :: _ =>
      if secondInRange a b && isTail c then
        (.char ((a.toNat % 16 * 64 + tailBits b) * 64 + tailBits c), 2)
      else (.stray a, 0)
    | _ => (.stray a, 0)
  else if 0xf0 ≤ a && a ≤ 0xf4 then
    match t with
    | b :: c :: d :: _ =>
      if secondInRange a b && isTail c && isTail d then
        (.char (((a.toNat % 8 * 64 + tailBits b) * 64 + tailBits c) * 64 + tailBits d), 3)
      else (.stray a, 0)
    | _ => (.stray a, 0)
  else (.stray a, 0)

/-- The units of a text, each with its bytes. -/
def units : Text → List (Unit8 × Text)
  | [] => []
  | a :: t =>
    let (u, n) := firstUnit a t
    (u, a :: t.take n) :: units (t.drop n)
  termination_by t => t.length
  decreasing_by simp only [List.length_drop, List.length_cons]; omega

/-- The UTF-8 bytes of a code point. -/
def encode (c : Nat) : Text :=
  if c < 0x80 then [c.toUInt8]
  else if c < 0x800 then [(0xc0 + c / 64).toUInt8, (0x80 + c % 64).toUInt8]
  else if c < 0x10000 then
    [(0xe0 + c / 4096).toUInt8, (0x80 + c / 64 % 64).toUInt8, (0x80 + c % 64).toUInt8]
  else
    [(0xf0 + c / 262144).toUInt8, (0x80 + c / 4096 % 64).toUInt8, (0x80 + c / 64 % 64).toUInt8,
      (0x80 + c % 64).toUInt8]

/-- The number of characters, each stray byte counting as one. -/
def charCount (t : Text) : Nat := (units t).length

/-- No byte of the text is stray. -/
def isUtf8 (t : Text) : Bool := (units t).all fun (u, _) => u matches .char _

/-- White space of Unicode. -/
def isSpaceCode (c : Nat) : Bool :=
  (0x09 ≤ c && c ≤ 0x0d) || c == 0x20 || c == 0x85 || c == 0xa0 || c == 0x1680 ||
    (0x2000 ≤ c && c ≤ 0x200a) || c == 0x2028 || c == 0x2029 || c == 0x202f || c == 0x205f ||
    c == 0x3000

/-- A unit that is white space. -/
def isSpaceUnit : Unit8 × Text → Bool
  | (.char c, _) => isSpaceCode c
  | (.stray _, _) => false

/-- The text without white space at its ends. -/
def trimSpace (t : Text) : Text :=
  let kept := ((units t).dropWhile isSpaceUnit).reverse.dropWhile isSpaceUnit
  (kept.reverse.map Prod.snd).flatten

/-- The maximal runs of characters that are not white space. -/
def fields (t : Text) : List Text :=
  let step (u : Unit8 × Text) (acc : Text × List Text) : Text × List Text :=
    if isSpaceUnit u then ([], if acc.1.isEmpty then acc.2 else acc.1 :: acc.2)
    else (u.2 ++ acc.1, acc.2)
  let (word, words) := (units t).foldr step ([], [])
  if word.isEmpty then words else word :: words

/-- Upper case of a word that is compared with ASCII words only.  Besides the ASCII letters,
dotless i and long s have an ASCII letter as their upper case. -/
def upperAscii (t : Text) : Text :=
  (units t).flatMap fun
    | (.char c, s) => if c == 0x131 then "I" else if c == 0x17f then "S" else s.map toUpper
    | (.stray _, s) => s

/-- Lower case of a word that is compared with ASCII words only.  Besides the ASCII letters, the
Kelvin sign and the capital I with a dot above have an ASCII letter as their lower case. -/
def lowerAscii (t : Text) : Text :=
  (units t).flatMap fun
    | (.char c, s) => if c == 0x212a then "k" else if c == 0x130 then "i" else s.map toLower
    | (.stray _, s) => s

end TwigLint.Text
