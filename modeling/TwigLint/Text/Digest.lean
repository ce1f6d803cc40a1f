import TwigLint.Text.Basic

/-! # Digests

The 160-bit secure hash of a text.  The text is padded to blocks of sixteen words; each block is
spread to eighty words, which are mixed one by one into five words of state.
-/

namespace TwigLint

namespace Digest

/-- The five words that the text is mixed into. -/
structure State where
  a : UInt32
  b : UInt32
  c : UInt32
  d : UInt32
  e : UInt32
  deriving DecidableEq, Repr

namespace State

/-- The state before the first block. -/
def start : State := ⟨0x67452301, 0xefcdab89, 0x98badcfe, 0x10325476, 0xc3d2e1f0⟩

def add (s t : State) : State := ⟨s.a + t.a, s.b + t.b, s.c + t.c, s.d + t.d, s.e + t.e⟩

end State

/-- A word turned to the left by less than 32 bits. -/
def rotate (w n : UInt32) : UInt32 := (w <<< n) ||| (w >>> (32 - n))

/-- The bytes of a number of `width` bytes, the highest first. -/
def bytes : (width : Nat) → Nat → Text
  | 0, _ => []
  | width + 1, n => bytes width (n / 256) ++ [n.toUInt8]

/-- The text with a one bit, zeros and its length in bits behind it, in full blocks. -/
def padded (t : Text) : Text :=
  t ++ (0x80 : UInt8) :: List.replicate ((119 - t.length % 64) % 64) 0 ++ bytes 8 (8 * t.length)

/-- The words of a text of whole words. -/
def words : Text → List UInt32
  | p :: q :: r :: s :: rest =>
    (p.toUInt32 <<< 24 ||| q.toUInt32 <<< 16 ||| r.toUInt32 <<< 8 ||| s.toUInt32) :: words rest
  | _ => []

/-- The words of a block, last first, with one more word. -/
def extend (ws : List UInt32) : List UInt32 :=
  rotate (ws.getD 2 0 ^^^ ws.getD 7 0 ^^^ ws.getD 13 0 ^^^ ws.getD 15 0) 1 :: ws

/-- The eighty words of a block. -/
def spread (block : List UInt32) : List UInt32 :=
  (Nat.repeat extend 64 block.reverse).reverse

/-- How three words are joined, and the constant added, at one of the eighty steps. -/
def join (i : Nat) (b c d : UInt32) : UInt32 :=
  if i < 20 then ((b &&& c) ||| (~~~b &&& d)) + 0x5a827999
  else if i < 40 then (b ^^^ c ^^^ d) + 0x6ed9eba1
  else if i < 60 then ((b &&& c) ||| (b &&& d) ||| (c &&& d)) + 0x8f1bbcdc
  else (b ^^^ c ^^^ d) + 0xca62c1d6

/-- Mixes a word into the state. -/
def mix (s : State) (step : UInt32 × Nat) : State :=
  let (w, i) := step
  ⟨rotate s.a 5 + join i s.b s.c s.d + s.e + w, s.a, rotate s.b 30, s.c, s.d⟩

/-- Mixes `n` blocks into the state. -/
def mixBlocks : (n : Nat) → List UInt32 → State → State
  | 0, _, s => s
  | n + 1, ws, s => mixBlocks n (ws.drop 16) (s.add ((spread (ws.take 16)).zipIdx.foldl mix s))

/-- The digest of a text, twenty bytes. -/
def of (t : Text) : Text :=
  let ws := words (padded t)
  let s := mixBlocks (ws.length / 16) ws .start
  [s.a, s.b, s.c, s.d, s.e].flatMap fun w => bytes 4 w.toNat

/-- The hexadecimal digits of bytes. -/
def hex (t : Text) : Text := t.flatMap fun b => Text.hexPadded 2 b.toNat

end Digest

end TwigLint
