import TwigLint.Text.Utf8

/-! # Patterns of names

A name matches a pattern if it is made of what the items of the pattern stand for: a star for any
text, a question mark for one character, a class in brackets for one of its characters, and all else
for itself.  A backslash takes away the meaning of the character behind it.
-/

namespace TwigLint

namespace Glob

inductive Item where
  | star
  | any
  | chars (negated : Bool) (ranges : List (Nat × Nat))
  | byte (b : UInt8)
  deriving DecidableEq, Repr

/-- The first character of a text and the rest; stray bytes count as the replacement character. -/
def firstChar? : Text → Option (Nat × Text)
  | [] => none
  | a :: t =>
    match Text.firstUnit a t with
    | (.char c, n) => some (c, t.drop n)
    | (.stray _, n) => some (0xfffd, t.drop n)

/-- A bound of a range in a class, which more has to follow. -/
def bound? (t : Text) : Option (Nat × Text) := do
  let unmarked ← match t with
    | [] => none
    | b :: rest =>
      if b == '-' || b == ']' then none
      else if b == '\\' then some rest
      else some t
  let a ← unmarked.head?
  match Text.firstUnit a (unmarked.drop 1) with
  | (.char c, n) =>
    let rest := unmarked.drop (n + 1)
    if rest.isEmpty then none else some (c, rest)
  | (.stray _, _) => none

/-- The ranges of a class up to its closing bracket, at least one; `n` bounds their number. -/
def ranges? : (n : Nat) → (isFirst : Bool) → Text → Option (List (Nat × Nat) × Text)
  | 0, _, _ => none
  | n + 1, isFirst, t => do
    if t.head? == some ']' && !isFirst then return ([], t.drop 1)
    let (lo, rest) ← bound? t
    let (hi, rest) ← if rest.head? == some '-' then bound? (rest.drop 1) else some (lo, rest)
    let (more, rest) ← ranges? n false rest
    return ((lo, hi) :: more, rest)

/-- The items of a pattern, unless it is malformed; `n` bounds their number. -/
def items? : (n : Nat) → Text → Option (List Item)
  | 0, _ => some []
  | _, [] => some []
  | n + 1, b :: rest =>
    if b == '*' then (items? n rest).map (.star :: ·)
    else if b == '?' then (items? n rest).map (.any :: ·)
    else if b == '[' then do
      let negated := rest.head? == some '^'
      let (rs, rest) ← ranges? rest.length true (if negated then rest.drop 1 else rest)
      return .chars negated rs :: (← items? n rest)
    else if b == '\\' then
      match rest with
      | [] => none
      | c :: rest => (items? n rest).map (.byte c :: ·)
    else (items? n rest).map (.byte b :: ·)

/-- A name is made of what the items stand for. -/
def fits : List Item → Text → Bool
  | [], t => t.isEmpty
  | .star :: rest, t =>
    fits rest t ||
      match t with
      | [] => false
      | _ :: u => fits (.star :: rest) u
  | .any :: rest, t =>
    match firstChar? t with
    | none => false
    | some (c, u) => c != '/'.toNat && fits rest u
  | .chars negated rs :: rest, t =>
    match firstChar? t with
    | none => false
    | some (c, u) => (rs.any fun (lo, hi) => lo ≤ c && c ≤ hi) != negated && fits rest u
  | .byte b :: rest, t =>
    match t with
    | [] => false
    | a :: u => a == b && fits rest u
  termination_by is t => (is.length, t.length)

/-- A pattern that is not malformed matches a name. -/
def isMatch (pattern name : Text) : Bool :=
  ((items? pattern.length pattern).map (fits · name)).getD false

/-- The names behind the first one that a pattern matches. -/
def afterMatch? (pattern : Text) (names : List Text) : Option (List Text) :=
  match names.dropWhile fun n => !isMatch pattern n with
  | [] => none
  | _ :: rest => some rest

end Glob

end TwigLint
