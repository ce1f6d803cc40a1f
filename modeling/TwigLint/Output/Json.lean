import TwigLint.Text.Utf8

/-! # JSON values

Values with ordered object fields, and their two printed forms: on one line, and indented.  A number
is its numeral.  Stray bytes are written as the replacement character.
-/

namespace TwigLint

inductive Json where
  | null
  | bool (b : Bool)
  | number (numeral : Text)
  | text (t : Text)
  | list (items : List Json)
  | object (fields : List (Text × Json))

namespace Json

/-- Which characters a string escapes beyond quotes, backslashes, control characters and line
separators, and how. -/
structure Style where
  /-- Angle brackets and ampersands are escaped, so that the text can stand in a web page. -/
  html : Bool
  /-- Backspace and form feed have a letter of their own. -/
  letters : Bool

/-- The style of reports. -/
def reportStyle : Style := ⟨true, true⟩

/-- The style of log lines. -/
def logStyle : Style := ⟨false, false⟩

/-- A character between quotes. -/
def escapeCode (s : Style) (c : Nat) (bytes : Text) : Text :=
  if c == 34 || c == 92 then "\\" ++ bytes
  else if c == 9 then "\\t"
  else if c == 10 then "\\n"
  else if c == 13 then "\\r"
  else if s.letters && c == 8 then "\\b"
  else if s.letters && c == 12 then "\\f"
  else if c < 0x20 || c == 0x2028 || c == 0x2029 then "\\u" ++ Text.hexPadded 4 c
  else if s.html && (c == 60 || c == 62 || c == 38) then "\\u" ++ Text.hexPadded 4 c
  else bytes

/-- The characters of a string between its quotes. -/
def escape (s : Style) (t : Text) : Text :=
  (Text.units t).flatMap fun
    | (.char c, bytes) => escapeCode s c bytes
    | (.stray _, _) => "\\ufffd"

/-- A string with its quotes. -/
def quote (s : Style) (t : Text) : Text := "\"" ++ escape s t ++ "\""

mutual
/-- The value on one line. -/
def compact (s : Style) : Json → Text
  | .null => "null"
  | .bool b => Text.ofBool b
  | .number numeral => numeral
  | .text t => quote s t
  | .list items => "[" ++ compactItems s true items ++ "]"
  | .object fields => "\x7b" ++ compactFields s true fields ++ "\x7d"

def compactItems (s : Style) (first : Bool) : List Json → Text
  | [] => []
  | v :: rest => (if first then "" else ",") ++ compact s v ++ compactItems s false rest

def compactFields (s : Style) (first : Bool) : List (Text × Json) → Text
  | [] => []
  | (k, v) :: rest =>
    (if first then "" else ",") ++ quote s k ++ ":" ++ compact s v ++
      compactFields s false rest
end

/-- A line break and the indentation of a level. -/
def newline (level : Nat) : Text := "\n" ++ Text.repeated "  " level

mutual
/-- The value with one item or field per line, two blanks deeper per level; empty lists and objects
stay on one line. -/
def indented (s : Style) (level : Nat) : Json → Text
  | .null => "null"
  | .bool b => Text.ofBool b
  | .number numeral => numeral
  | .text t => quote s t
  | .list items =>
    if items.isEmpty then "[]"
    else "[" ++ indentedItems s (level + 1) true items ++ newline level ++ "]"
  | .object fields =>
    if fields.isEmpty then "\x7b\x7d"
    else "\x7b" ++ indentedFields s (level + 1) true fields ++ newline level ++ "\x7d"

def indentedItems (s : Style) (level : Nat) (first : Bool) : List Json → Text
  | [] => []
  | v :: rest =>
    (if first then "" else ",") ++ newline level ++ indented s level v ++
      indentedItems s level false rest

def indentedFields (s : Style) (level : Nat) (first : Bool) : List (Text × Json) → Text
  | [] => []
  | (k, v) :: rest =>
    (if first then "" else ",") ++ newline level ++ quote s k ++ ": " ++
      indented s level v ++ indentedFields s level false rest
end

def ofInt (n : Int) : Json := .number (Text.ofInt n)

def ofNat (n : Nat) : Json := .number (Text.ofNat n)

end Json

end TwigLint
