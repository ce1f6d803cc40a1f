import TwigLint.Number.Shortest
import TwigLint.Text.Quoted
import TwigLint.Timestamp

/-! # Dynamic values

Values whose shape is not known beforehand: the entries of an enumeration and default values.
-/

namespace TwigLint

/-- A dynamic value.  A map has texts as keys, a dictionary has keys of any kind. -/
inductive Data where
  | null
  | bool (b : Bool)
  | int (n : Int)
  | float (x : Double)
  | text (t : Text)
  | time (t : Timestamp)
  | list (items : List Data)
  | map (fields : List (Text × Data))
  | dictionary (entries : List (Data × Data))

instance : Inhabited Data := ⟨.null⟩

namespace Data

/-! ## Keys -/

/-- Position of a key among the keys of a dictionary.  An integer without a sign bit to spare counts
as a kind of its own. -/
def keyRank : Data → Nat
  | .null => 0
  | .bool _ => 1
  | .float _ => 2
  | .int n => if n < 0x8000000000000000 then 3 else 5
  | .text _ => 4
  | _ => 6

/-- The order of keys: by kind, then by size; texts bytewise, and times by the fraction of the
second first, and universal time before other clocks. -/
def keyLe (a b : Data) : Bool :=
  match a, b with
  | .bool x, .bool y => !x || y
  | .int m, .int n => m ≤ n
  | .float x, .float y => x.isNaN || x.le y
  | .text s, .text t => s.le t
  | .time s, .time t =>
    s.nanosecond < t.nanosecond || (s.nanosecond == t.nanosecond &&
      (s.epochSeconds < t.epochSeconds ||
        (s.epochSeconds == t.epochSeconds && (s.ahead?.isNone || t.ahead?.isSome))))
  | _, _ => keyRank a ≤ keyRank b

/-- The clock has a name that other times can share: it shows universal time, or is whole hours away
from it, at most twelve behind and fourteen ahead. -/
def sharesClock (t : Timestamp) : Bool :=
  t.offset % 3600 == 0 && -12 * 3600 ≤ t.offset && t.offset ≤ 14 * 3600

/-- Two keys are the same.  Times are only if they share a clock, and what is no number never is. -/
def sameKey (a b : Data) : Bool :=
  match a, b with
  | .null, .null => true
  | .bool x, .bool y => x == y
  | .int m, .int n => m == n
  | .float x, .float y => x.le y && y.le x
  | .text s, .text t => s == t
  | .time s, .time t => s == t && sharesClock s
  | _, _ => false

/-- A collection cannot be a key. -/
def isCollection : Data → Bool
  | .list _ | .map _ | .dictionary _ => true
  | _ => false

/-- The entries with a value under a key, in place of the one that is there. -/
def put (entries : List (Data × Data)) (key value : Data) : List (Data × Data) :=
  match entries with
  | [] => [(key, value)]
  | (k, v) :: rest => if sameKey k key then (key, value) :: rest else (k, v) :: put rest key value

/-! ## Texts of values -/

mutual
/-- The text of a value: lists in brackets with blanks between their items, maps sorted by key. -/
def render : Data → Text
  | .null => "<nil>"
  | .bool b => Text.ofBool b
  | .int n => Text.ofInt n
  | .float x => FloatStyle.general.render x
  | .text t => t
  | .time t => t.render
  | .list items => "[" ++ Text.join " " (renderItems items) ++ "]"
  | .map fields =>
    let entries := (renderFields fields).mergeSort fun a b => a.1.le b.1
    "map[" ++ Text.join " " (entries.map fun (k, v) => k ++ ":" ++ v) ++ "]"
  | .dictionary entries =>
    let entries := (renderEntries entries).mergeSort fun a b => keyLe a.1 b.1
    "map[" ++ Text.join " " (entries.map Prod.snd) ++ "]"

def renderItems : List Data → List Text
  | [] => []
  | v :: rest => render v :: renderItems rest

def renderFields : List (Text × Data) → List (Text × Text)
  | [] => []
  | (k, v) :: rest => (k, render v) :: renderFields rest

def renderEntries : List (Data × Data) → List (Data × Text)
  | [] => []
  | (k, v) :: rest => (k, render k ++ ":" ++ render v) :: renderEntries rest
end

/-- The types of collections. -/
def listType : Text := "[]interface \x7b\x7d"

def mapType : Text := "map[string]interface \x7b\x7d"

def dictionaryType : Text := "map[interface \x7b\x7d]interface \x7b\x7d"

/-- The type of a collection. -/
def collectionType : Data → Text
  | .list _ => listType
  | .map _ => mapType
  | _ => dictionaryType

/-- Items between braces. -/
def braced (items : List Text) : Text := "\x7b" ++ Text.join ", " items ++ "\x7d"

/-- A time as an expression. -/
def timeLiteral (t : Timestamp) : Text :=
  let month : String := ["January", "February", "March", "April", "May", "June", "July", "August",
    "September", "October", "November", "December"][t.month - 1]?.getD ""
  let clock := [t.day, t.hour, t.minute, t.second, t.nanosecond].map Text.ofNat
  let zone : Text :=
    match t.ahead? with
    | none => "time.UTC"
    | some offset => if offset = 0 then "time.Local" else "time.Location(\"\")"
  "time.Date(" ++ Text.ofNat t.year ++ ", time." ++ Text.ofString month ++ ", " ++
    Text.join ", " clock ++ ", " ++ zone ++ ")"

mutual
/-- The value as an expression, with the types of collections. -/
def literal : Data → Text
  | .null => "interface \x7b\x7d(nil)"
  | .int n => if n < 0x8000000000000000 then Text.ofInt n else "0x" ++ Text.hexPadded 16 n.toNat
  | .text t => t.quoted
  | .time t => timeLiteral t
  | .list items => listType ++ braced (literalItems items)
  | .map fields =>
    let entries := (literalFields fields).mergeSort fun a b => a.1.le b.1
    mapType ++ braced (entries.map Prod.snd)
  | .dictionary entries =>
    let entries := (literalEntries entries).mergeSort fun a b => keyLe a.1 b.1
    dictionaryType ++ braced (entries.map Prod.snd)
  | .bool b => Text.ofBool b
  | .float x => FloatStyle.general.render x

def literalItems : List Data → List Text
  | [] => []
  | v :: rest => literal v :: literalItems rest

def literalFields : List (Text × Data) → List (Text × Text)
  | [] => []
  | (k, v) :: rest => (k, k.quoted ++ ":" ++ literal v) :: literalFields rest

def literalEntries : List (Data × Data) → List (Data × Text)
  | [] => []
  | (k, v) :: rest => (k, literal k ++ ":" ++ literal v) :: literalEntries rest
end

/-! ## Equality -/

mutual
/-- Equality of values by their parts; numbers of one kind are compared by size, so that both zeros
are equal. -/
def same : Data → Data → Bool
  | .null, .null => true
  | .bool x, .bool y => x == y
  | .int m, .int n => m == n
  | .float x, .float y => x.le y && y.le x
  | .text s, .text t => s == t
  | .time s, .time t => s == t
  | .list xs, .list ys => sameItems xs ys
  | .map fs, .map gs => fs.length == gs.length && sameFields fs gs
  | .dictionary es, .dictionary ds => es.length == ds.length && sameEntries es ds
  | _, _ => false
termination_by structural a => a

def sameItems : List Data → List Data → Bool
  | [], [] => true
  | x :: xs, y :: ys => same x y && sameItems xs ys
  | _, _ => false
termination_by structural items => items

/-- All fields of a map stand in another one. -/
def sameFields : List (Text × Data) → List (Text × Data) → Bool
  | [], _ => true
  | (k, v) :: rest, gs => (gs.lookup k).any (fun w => same v w) && sameFields rest gs
termination_by structural fields => fields

/-- All entries of a dictionary stand in another one. -/
def sameEntries : List (Data × Data) → List (Data × Data) → Bool
  | [], _ => true
  | (k, v) :: rest, ds =>
    (ds.find? fun e => sameKey k e.1).any (fun e => same v e.2) && sameEntries rest ds
termination_by structural entries => entries
end

/-- Two values that print alike also count as the same, so that a number and its numeral match. -/
def looselyEqual (a b : Data) : Bool := same a b || a.render == b.render

end Data

end TwigLint
