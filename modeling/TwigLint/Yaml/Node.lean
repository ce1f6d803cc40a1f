import TwigLint.Yaml.Token

/-! # YAML nodes

A document is a tree of scalars, sequences and mappings.  An alias stands for the node with its
anchor and keeps that node, so that the tree can be read without a table of anchors.  Only an alias
inside the collection it stands for cannot keep it; the document lists the collections for these.
-/

namespace TwigLint.Yaml

/-- The kind of value a node is tagged as. -/
inductive Tag where
  | str
  | bool
  | int
  | float
  | null
  | timestamp
  | binary
  | merge
  | seq
  | map
  | other (label : Text)
  deriving DecidableEq, Repr

namespace Tag

/-- The short form of a tag. -/
def label : Tag → Text
  | .str => "!!str"
  | .bool => "!!bool"
  | .int => "!!int"
  | .float => "!!float"
  | .null => "!!null"
  | .timestamp => "!!timestamp"
  | .binary => "!!binary"
  | .merge => "!!merge"
  | .seq => "!!seq"
  | .map => "!!map"
  | .other t => t

/-- The tags with a meaning of their own. -/
def standard : List Tag :=
  [.str, .bool, .int, .float, .null, .timestamp, .binary, .merge, .seq, .map]

/-- What the long forms of the standard tags start with. -/
def longForm : Text := "tag:yaml.org,2002:"

/-- The tag with a long or short form. -/
def ofText (t : Text) : Tag :=
  let short : Text := match Text.after? longForm t with
    | some name => "!!" ++ name
    | none => t
  (standard.find? (·.label == short)).getD (.other short)

end Tag

/-- A collection that an alias inside it stands for: where it starts, its tag, and its kind. -/
structure LoopTarget where
  index : Nat
  tag : Tag
  isMapping : Bool
  deriving DecidableEq, Repr

/-- A node and the line where it starts.  Aliases also have the place where they start. -/
inductive Node where
  | scalar (line : Nat) (tag : Tag) (value : Text)
  | sequence (line : Nat) (tag : Tag) (items : List Node)
  | mapping (line : Nat) (tag : Tag) (entries : List (Node × Node))
  | aliasOf (index line : Nat) (anchor : Text) (target : Node)
  /-- An alias inside the collection it stands for. -/
  | loop (index line : Nat) (anchor : Text) (target : LoopTarget)

namespace Node

instance : Inhabited Node := ⟨.scalar 0 .null []⟩

/-- The line of a node, counted from one. -/
def line : Node → Nat
  | .scalar l _ _ | .sequence l _ _ | .mapping l _ _ | .aliasOf _ l _ _ | .loop _ l _ _ => l

/-- The text of a node: that of a scalar, and the anchor of an alias. -/
def value : Node → Text
  | .scalar _ _ t => t
  | .aliasOf _ _ anchor _ | .loop _ _ anchor _ => anchor
  | _ => []

/-- The key and value pairs of a mapping. -/
def entries : Node → List (Node × Node)
  | .mapping _ _ es => es
  | _ => []

def isMapping : Node → Bool
  | .mapping .. => true
  | _ => false

def isSequence : Node → Bool
  | .sequence .. => true
  | _ => false

/-- The tag of a node, that of its target for an alias. -/
def tag : Node → Tag
  | .scalar _ t _ | .sequence _ t _ | .mapping _ t _ => t
  | .aliasOf _ _ _ target => target.tag
  | .loop _ _ _ target => target.tag

/-- A scalar without a value. -/
def isNull : Node → Bool
  | .scalar _ t _ => t == .null
  | _ => false

/-- A key that merges the entries of other mappings. -/
def isMerge : Node → Bool
  | .scalar _ t v => t == .merge && v == "<<"
  | _ => false

end Node

/-- The aliases inside the collections they stand for: how many there are, and the collections by
the places where they start. -/
structure Loops where
  count : Nat
  targets : List (Nat × Node)

/-- The root of a document and its loops. -/
structure Document where
  root : Node
  loops : Loops

end TwigLint.Yaml
