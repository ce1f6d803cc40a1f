import TwigLint.Text.Utf8
import TwigLint.Text.Printable

/-! # Quoted text

The double-quoted form in which messages show a text: printable characters stand as they are, the
quote and the backslash are escaped, and everything else is written as an escape sequence.
-/

namespace TwigLint.Text

/-- The escapes that have a letter of their own. -/
def letterEscape? (c : Nat) : Option Text :=
  if c == 7 then some "\\a"
  else if c == 8 then some "\\b"
  else if c == 12 then some "\\f"
  else if c == 10 then some "\\n"
  else if c == 13 then some "\\r"
  else if c == 9 then some "\\t"
  else if c == 11 then some "\\v"
  else none

/-- A code point inside quotes. -/
def quoteCode (c : Nat) (bytes : Text) : Text :=
  if c == 34 || c == 92 then "\\" ++ bytes
  else if isPrintable c then bytes
  else
    match letterEscape? c with
    | some e => e
    | none =>
      if c < 0x80 then "\\x" ++ hexPadded 2 c
      else if c < 0x10000 then "\\u" ++ hexPadded 4 c
      else "\\U" ++ hexPadded 8 c

/-- One unit of a text inside quotes. -/
def quoteUnit : Unit8 × Text → Text
  | (.char c, bytes) => quoteCode c bytes
  | (.stray b, _) => "\\x" ++ hexPadded 2 b.toNat

/-- The text between double quotes. -/
def quoted (t : Text) : Text := "\"" ++ (units t).flatMap quoteUnit ++ "\""

end TwigLint.Text
