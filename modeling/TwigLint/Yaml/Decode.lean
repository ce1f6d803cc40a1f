import TwigLint.Duration
import TwigLint.Yaml.Document

/-! # Reading nodes

Reading a node as a value of a wanted type.  What does not fit is noted and left out, so that all
mismatches of a document are reported together; a few faults end the reading at once.  An alias
reads as the node it stands for, but a document whose aliases make it far larger than it is written
is refused.
-/

namespace TwigLint.Yaml

/-- What is known while nodes are read. -/
structure Progress where
  loops : Loops
  /-- The mismatches found, latest first. -/
  mismatches : List Mismatch
  /-- Number of nodes read, and how many of them through aliases. -/
  visits : Nat
  repeats : Nat
  /-- The aliases that are being followed, innermost first. -/
  entered : List Nat

/-- Reading nodes while collecting mismatches. -/
abbrev Decode (α : Type) := StateT Progress (Except Error) α

namespace Decode

/-- Notes a mismatch. -/
def note (m : Mismatch) : Decode Unit :=
  modify fun p => { p with mismatches := m :: p.mismatches }

/-- Notes that a node is not of the wanted type. -/
def wrongType {α : Type} (n : Node) (type : Text) : Decode (Option α) := do
  note (.wrongType n.line n.tag n.value type)
  return none

/-- The value, or all mismatches found. -/
def complete {α : Type} (loops : Loops) (d : Decode α) : Except Error α := do
  let (a, p) ← d.run ⟨loops, [], 0, 0, []⟩
  if p.mismatches.isEmpty then return a else throw (.mismatches p.mismatches.reverse)

/-! ## Aliases -/

/-- Too many of the nodes are read through aliases: more than 99 of 100 in a document of up to
400000 nodes, more than 10 of 100 from ten times as many on, and a share that falls evenly in
between. -/
def isExcessive (repeats visits : Nat) : Bool :=
  100 < repeats && 1000 < visits &&
    if visits ≤ 400000 then 99 * visits < 100 * repeats
    else if 4000000 ≤ visits then visits < 10 * repeats
    else visits * (99 * 3600000 - 89 * (visits - 400000)) < 100 * 3600000 * repeats

/-- Counts the reading of a node. -/
def count : Decode Unit := do
  let p ← get
  let visits := p.visits + 1
  let repeats := if p.entered.isEmpty then p.repeats else p.repeats + 1
  set { p with visits, repeats }
  if isExcessive repeats visits then throw .tooManyAliases

/-- Reads what an alias stands for.  An alias that is being followed already has no value. -/
def follow {α : Type} (index : Nat) (name : Text) (target : Decode α) : Decode α := do
  if (← get).entered.contains index then throw (.selfReference name)
  modify fun p => { p with entered := index :: p.entered }
  let a ← target
  modify fun p => { p with entered := p.entered.drop 1 }
  return a

/-- The collection that an alias inside it stands for. -/
def loopTarget (name : Text) (index : Nat) : Decode Node := do
  match (← get).loops.targets.lookup index with
  | some n => return n
  | none => throw (.selfReference name)

/-- Reads a node, or the node an alias stands for, with a reader of other nodes. -/
def visit {α : Type} (read : Node → Decode α) (n : Node) : Decode α := do
  count
  match n with
  | .aliasOf index _ name target =>
    follow index name do
      count
      read target
  | .loop index _ name target =>
    follow index name do
      count
      read (← loopTarget name target.index)
  | n => read n

/-! ## Scalars -/

/-- The value of a digit of base 64. -/
def base64Value? (b : UInt8) : Option Nat :=
  if Text.isUpper b then some (b.toNat - 65)
  else if Text.isLower b then some (b.toNat - 71)
  else if Text.isDigit b then some (b.toNat + 4)
  else if b == '+' then some 62
  else if b == '/' then some 63
  else none

/-- The bytes of a text in base 64, which is padded to groups of four. -/
def base64? : Text → Option Text
  | [] => some []
  | [a, b, c, d] => do
    let x ← base64Value? a
    let y ← base64Value? b
    if c == '=' && d == '=' then some [(x * 4 + y / 16).toUInt8]
    else
      let z ← base64Value? c
      if d == '=' then some [(x * 4 + y / 16).toUInt8, (y * 16 + z / 4).toUInt8]
      else
        let w ← base64Value? d
        some [(x * 4 + y / 16).toUInt8, (y * 16 + z / 4).toUInt8, (z * 64 + w).toUInt8]
  | a :: b :: c :: d :: rest => do
    let x ← base64Value? a
    let y ← base64Value? b
    let z ← base64Value? c
    let w ← base64Value? d
    let more ← base64? rest
    some ((x * 4 + y / 16).toUInt8 :: (y * 16 + z / 4).toUInt8 :: (z * 64 + w).toUInt8 :: more)
  | _ => none

/-- The value of a scalar with a tag. -/
def scalarValue (tag : Tag) (t : Text) : Decode ScalarValue :=
  if tag == .binary then
    match base64? (t.filter fun b => b != '\n' && b != '\r') with
    | some bytes => return .text bytes
    | none => throw .notBase64
  else
    match resolve tag t with
    | .ok value => return value
    | .error mismatch => throw (.wrongTag mismatch)

/-- No key of a mapping is written twice; a repeated one is noted. -/
def keysDistinct : List (Node × Node) → Decode Bool
  | [] => return true
  | (k, _) :: rest => do
    let same := rest.filter fun (other, _) => kindOf k == kindOf other && k.value == other.value
    for (other, _) in same do
      note (.repeatedKey other.line other.value k.line)
    return (← keysDistinct rest) && same.isEmpty
where
  kindOf : Node → Nat
    | .scalar .. => 0
    | .sequence .. => 1
    | .mapping .. => 2
    | .aliasOf .. | .loop .. => 3

/-- Reads a scalar as a value of a type by `pick`; null leaves it unset. -/
def scalar {α : Type} (type : Text) (pick : Text → ScalarValue → Option α) :
    Node → Decode (Option α) :=
  visit fun n => do
    match n with
    | .scalar _ tag t =>
      match ← scalarValue tag t with
      | .null => return none
      | value =>
        match pick t value with
        | some a => return some a
        | none => wrongType n type
    | .mapping _ _ es => if ← keysDistinct es then wrongType n type else return none
    | n => wrongType n type

/-- Any scalar is a text, by the way it is written. -/
def text : Node → Decode (Option Text) :=
  scalar "string" fun written value =>
    match value with
    | .text t => some t
    | _ => some written

/-- Words that count as truth values where one is wanted.  A word is written small, with a capital
in front, or in capitals. -/
def boolWord? (t : Text) : Option Bool :=
  let is (ws : List String) : Bool := ws.any fun w => Text.ofString w == t
  if is ["y", "Y", "yes", "Yes", "YES", "on", "On", "ON"] then some true
  else if is ["n", "N", "no", "No", "NO", "off", "Off", "OFF"] then some false
  else none

def bool : Node → Decode (Option Bool) :=
  scalar "bool" fun _ value =>
    match value with
    | .bool b => some b
    | .text t => boolWord? t
    | _ => none

/-- A 64-bit integer; a fraction is cut off. -/
def int : Node → Decode (Option Int) :=
  scalar "int" fun _ value =>
    match value with
    | .int n => if Text.isInt64 n then some n else none
    | .float x => if x.le (.ofInt 0x8000000000000000) then some x.toInt64 else none
    | _ => none

def float : Node → Decode (Option Double) :=
  scalar "float64" fun _ value =>
    match value with
    | .int n => some (.ofInt n)
    | .float x => some x
    | _ => none

/-- A duration in nanoseconds, written with units. -/
def duration : Node → Decode (Option Int) :=
  scalar "time.Duration" fun _ value =>
    match value with
    | .text t => Duration.read? t
    | _ => none

/-! ## Sequences -/

/-- The items that can be read. -/
def items {α : Type} (item : Node → Decode (Option α)) : List Node → Decode (List α)
  | [] => return []
  | n :: rest => do
    let a? ← item n
    let more ← items item rest
    return a?.toList ++ more

/-- Reads a sequence; null is an empty one. -/
def list {α : Type} (type : Text) (item : Node → Decode (Option α)) :
    Node → Decode (Option (List α)) :=
  visit fun n => do
    match n with
    | .scalar _ tag t =>
      match ← scalarValue tag t with
      | .null => return some []
      | _ => wrongType n type
    | .sequence _ _ ns => some <$> items item ns
    | .mapping _ _ es => if ← keysDistinct es then wrongType n type else return none
    | n => wrongType n type

/-- Reads a sequence of texts. -/
def texts : Node → Decode (Option (List Text)) := list "[]string" text

end Decode

end TwigLint.Yaml
