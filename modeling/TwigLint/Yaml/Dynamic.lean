import TwigLint.Component.Data
import TwigLint.Yaml.Decode

/-! # Dynamic values of nodes

The value of a node whose type is not known beforehand.  A mapping is a map if all its keys are
texts, and a dictionary otherwise.  It may merge the entries of other mappings, which its own keys
hide.
-/

namespace TwigLint.Yaml

namespace Decode

/-- The dynamic value of a scalar. -/
def ofScalar : ScalarValue → Data
  | .null => .null
  | .bool b => .bool b
  | .int n => .int n
  | .float x => .float x
  | .timestamp t => .time t
  | .text t => .text t

/-- All keys are texts. -/
def keysTextual (es : List (Node × Node)) : Bool :=
  es.all fun (k, _) => k.tag == .str || k.tag == .merge

/-- The value of a mapping. -/
def ofEntries (textual : Bool) (entries : List (Data × Data)) : Data :=
  if textual then .map (entries.map fun (k, v) => (k.render, v)) else .dictionary entries

/-- The keys that the entries of a merged mapping may not have; none outside of merges. -/
abbrev Hidden := Option (List Data)

/-- A mapping that is being read: its entries, and the keys that are hidden from now on. -/
abbrev Reading := List (Data × Data) × Hidden

/-- Looks a key up among the hidden ones, and hides it from now on. -/
def isHidden (hidden : Hidden) (key : Data) : Decode (Bool × Hidden) :=
  match hidden with
  | none => return (false, none)
  | some keys =>
    if key.isCollection then throw (.crashed (.collectionKey key.collectionType))
    else if keys.any (Data.sameKey key) then return (true, hidden)
    else return (false, some (key :: keys))

/-- Refuses a collection as a key. -/
def checkKey (key : Data) : Decode Unit :=
  if key.isCollection then throw (.collectionKey key.literal) else return ()

/-- How the collections are read that aliases inside them stand for: as values, and onto a mapping
that merges them. -/
structure Reentry where
  value : Text → Nat → Decode (Option Data)
  source : Text → Nat → (textual : Bool) → Reading → Decode Reading

mutual

/-- The dynamic value of a node. -/
def value (again : Reentry) : Node → Decode (Option Data)
  | .scalar _ tag t => do
    count
    return some (ofScalar (← scalarValue tag t))
  | .sequence _ _ ns => do
    count
    return some (.list (← valueItems again ns))
  | .mapping _ _ es => do
    count
    if ← keysDistinct es then
      let textual := keysTextual es
      let (entries, _) ← ownEntries again textual ([], none) es
      let keys ← if es.any (·.1.isMerge) then keyValues again es else pure []
      let (entries, _) ← mergedEntries again textual (entries, none) keys es
      return some (ofEntries textual entries)
    else return none
  | .aliasOf index _ name target => do
    count
    follow index name (value again target)
  | .loop index _ name target => do
    count
    follow index name (again.value name target.index)

/-- The dynamic values of the items that have one. -/
def valueItems (again : Reentry) : List Node → Decode (List Data)
  | [] => return []
  | n :: rest => do
    let d? ← value again n
    let more ← valueItems again rest
    return d?.toList ++ more

/-- The entries of a mapping that are not merges and not hidden. -/
def ownEntries (again : Reentry) (textual : Bool) (r : Reading) :
    List (Node × Node) → Decode Reading
  | [] => return r
  | (k, v) :: rest => do
    if k.isMerge then ownEntries again textual r rest
    else
      let key? ← if textual then (·.map Data.text) <$> text k else value again k
      match key? with
      | none => ownEntries again textual r rest
      | some key =>
        let (isHidden, hidden) ← isHidden r.2 key
        if isHidden then ownEntries again textual (r.1, hidden) rest
        else
          checkKey key
          let entries := match ← value again v with
            | some d => Data.put r.1 key d
            | none => r.1
          ownEntries again textual (entries, hidden) rest

/-- The dynamic values of the keys of a mapping, which those it merges may not have. -/
def keyValues (again : Reentry) : List (Node × Node) → Decode (List Data)
  | [] => return []
  | (k, _) :: rest => do
    let key? ← value again k
    if let some key := key? then
      if key.isCollection then throw (.crashed (.collectionKey key.collectionType))
    let more ← keyValues again rest
    return key?.toList ++ more

/-- The entries that a mapping merges; `keys` are hidden from them. -/
def mergedEntries (again : Reentry) (textual : Bool) (r : Reading) (keys : List Data) :
    List (Node × Node) → Decode Reading
  | [] => return r
  | (k, v) :: rest =>
    if k.isMerge then do
      let merged ← source again textual false (r.1, some keys) v
      return (merged.1, r.2.bind fun _ => merged.2)
    else mergedEntries again textual r keys rest

/-- The entries of a mapping that is merged, or of the mappings in a sequence that is not itself an
item of one. -/
def source (again : Reentry) (textual isItem : Bool) (r : Reading) : Node → Decode Reading
  | .mapping _ _ es => do
    count
    if ← keysDistinct es then
      let r ← ownEntries again textual r es
      mergedEntries again textual r (r.2.getD []) es
    else return r
  | .sequence _ _ ns => if isItem then throw .mergeOperand else sourceItems again textual r ns
  | .aliasOf index _ name target =>
    if target.isMapping then do
      count
      follow index name (source again textual true r target)
    else throw .mergeOperand
  | .loop index _ name target =>
    if target.isMapping then do
      count
      follow index name (again.source name target.index textual r)
    else throw .mergeOperand
  | .scalar .. => throw .mergeOperand

/-- The entries of several mappings that are merged, of which earlier ones hide later ones. -/
def sourceItems (again : Reentry) (textual : Bool) (r : Reading) : List Node → Decode Reading
  | [] => return r
  | n :: rest => do
    let r ← source again textual true r n
    sourceItems again textual r rest

end

/-- Reads collections again that aliases inside them stand for, up to `n` of them inside each
other. -/
def reentry : Nat → Reentry
  | 0 => ⟨fun name _ => throw (.selfReference name), fun name _ _ _ => throw (.selfReference name)⟩
  | n + 1 => {
    value := fun name index => do value (reentry n) (← loopTarget name index)
    source := fun name index textual r => do
      source (reentry n) textual true r (← loopTarget name index) }

/-- The dynamic value of a node. -/
def data (n : Node) : Decode (Option Data) := do
  value (reentry (← get).loops.count) n

/-- Reads a sequence of dynamic values. -/
def dataList : Node → Decode (Option (List Data)) := list Data.listType data

end Decode

end TwigLint.Yaml
