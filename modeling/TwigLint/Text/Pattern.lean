import TwigLint.Text.Utf8

/-! # Regular expressions

A pattern stands for a set of texts.  This module has patterns and what they match; that a pattern
matches is a question about places, so a search is done with the places that can be reached.
-/

namespace TwigLint

/-- A condition on a place in a text. -/
inductive Edge where
  | textStart
  | textEnd
  | lineStart
  | lineEnd
  | wordEdge
  | noWordEdge
  deriving DecidableEq, Repr

inductive Pattern where
  | nothing
  /-- One character, in one of the ranges or in none; if it is folded, small letters and capitals
  are not told apart. -/
  | chars (negated folded : Bool) (ranges : List (Nat × Nat))
  | edge (e : Edge)
  | seq (p q : Pattern)
  | either (p q : Pattern)
  | times (least : Nat) (most : Option Nat) (p : Pattern)
  deriving DecidableEq, Repr

namespace Pattern

/-! ## Characters -/

/-- Ranges of characters, each with its bounds. -/
abbrev Ranges := List (Nat × Nat)

def lastCode : Nat := 0x10ffff

/-- The other characters than those of ranges in order, from `first` on. -/
def complement (first : Nat) : Ranges → Ranges
  | [] => if first ≤ lastCode then [(first, lastCode)] else []
  | (lo, hi) :: rest =>
    (if first < lo then [(first, lo - 1)] else []) ++ complement (hi + 1) rest

def digits : Ranges := [(0x30, 0x39)]

/-- Letters, digits and the underscore. -/
def wordChars : Ranges := [(0x30, 0x39), (0x41, 0x5a), (0x5f, 0x5f), (0x61, 0x7a)]

def blanks : Ranges := [(0x09, 0x0a), (0x0c, 0x0d), (0x20, 0x20)]

def contains (rs : Ranges) (c : Nat) : Bool := rs.any fun (lo, hi) => lo ≤ c && c ≤ hi

/-- The same letter as a capital or a small letter. -/
def otherCase (c : Nat) : Nat :=
  if 0x41 ≤ c && c ≤ 0x5a then c + 32 else if 0x61 ≤ c && c ≤ 0x7a then c - 32 else c

/-! ## Matches -/

/-- The characters of a text; a stray byte counts as the replacement character. -/
def codes (t : Text) : Array Nat :=
  ((Text.units t).map fun
    | (.char c, _) => c
    | (.stray _, _) => 0xfffd).toArray

/-- The condition holds at a place. -/
def holdsAt (t : Array Nat) (i : Nat) : Edge → Bool
  | .textStart => i == 0
  | .textEnd => i == t.size
  | .lineStart => i == 0 || t[i - 1]? == some 0x0a
  | .lineEnd => i == t.size || t[i]? == some 0x0a
  | .wordEdge => isWordEdge
  | .noWordEdge => !isWordEdge
where
  isWordEdge : Bool :=
    (0 < i && t[i - 1]?.any (contains wordChars)) != t[i]?.any (contains wordChars)

/-- The places reached from some places by up to `n` further steps. -/
def reach (step : Nat → List Nat) : (n : Nat) → (fresh all : List Nat) → List Nat
  | 0, _, all => all
  | n + 1, fresh, all =>
    let next := ((fresh.flatMap step).eraseDups).filter (!all.contains ·)
    if next.isEmpty then all else reach step n next (all ++ next)

/-- The places at which a match that starts at a place may end. -/
def ends (t : Array Nat) : Pattern → Nat → List Nat
  | .nothing, i => [i]
  | .chars negated folded rs, i =>
    match t[i]? with
    | none => []
    | some c =>
      if (contains rs c || (folded && contains rs (otherCase c))) != negated then [i + 1] else []
  | .edge e, i => if holdsAt t i e then [i] else []
  | .seq p q, i => ((ends t p i).flatMap (ends t q)).eraseDups
  | .either p q, i => ends t p i ++ ends t q i
  | .times least most p, i =>
    let start := Nat.repeat (fun is => (is.flatMap (ends t p)).eraseDups) least [i]
    let more := match most with
      | some n => n - least
      | none => t.size + 1
    reach (ends t p) more start start

/-- The pattern matches a part of a text. -/
def occursIn (p : Pattern) (t : Text) : Bool :=
  let cs := codes t
  (List.range (cs.size + 1)).any fun i => !(ends cs p i).isEmpty

/-! ## Joined patterns -/

/-- Patterns one after another, given last first. -/
def sequence (ps : List Pattern) : Pattern :=
  match ps with
  | [] => .nothing
  | p :: rest => rest.foldl (fun q p => .seq p q) p

/-- Counted repetitions inside each other repeat no more than `limit` times. -/
def isRepeatedUpTo (limit : Nat) : Pattern → Bool
  | .times least most p =>
    let n := most.getD least
    n == 0 && most.isSome || (n ≤ limit && p.isRepeatedUpTo (if n == 0 then limit else limit / n))
  | .seq p q | .either p q => p.isRepeatedUpTo limit && q.isRepeatedUpTo limit
  | _ => true

end Pattern

end TwigLint
