import TwigLint.Yaml.Dynamic

/-! # Mappings of a known shape

A mapping read as a table of values of one type, or as a record with known keys.  Like a mapping of
unknown shape it may merge the entries of others.
-/

namespace TwigLint.Yaml

namespace Decode

/-- What becomes of one entry: its key as a node and as a text, and its value.  `fresh` tells that
the entry stands in the mapping itself and not in one that it merges. -/
abbrev EntryStep (σ : Type) := (fresh : Bool) → σ → Node → Text → Node → Decode σ

/-- How collections are merged that aliases inside them stand for. -/
abbrev FoldAgain (σ : Type) := Text → Nat → σ × Hidden → Decode (σ × Hidden)

/-- Folds the entries of a mapping that are not merges and not hidden. -/
def foldOwn {σ : Type} (step : EntryStep σ) (fresh : Bool) :
    List (Node × Node) → σ × Hidden → Decode (σ × Hidden)
  | [], r => return r
  | (k, v) :: rest, r => do
    if k.isMerge then foldOwn step fresh rest r
    else
      match ← text k with
      | none => foldOwn step fresh rest r
      | some key =>
        let (isHidden, hidden) ← isHidden r.2 (.text key)
        if isHidden then foldOwn step fresh rest (r.1, hidden)
        else foldOwn step fresh rest (← step fresh r.1 k key v, hidden)

mutual

/-- Folds the entries that a mapping merges; `keys` are hidden from them. -/
def foldMerged {σ : Type} (step : EntryStep σ) (again : FoldAgain σ) (r : σ × Hidden)
    (keys : List Data) : List (Node × Node) → Decode (σ × Hidden)
  | [] => return r
  | (k, v) :: rest =>
    if k.isMerge then do
      let merged ← foldSource step again false (r.1, some keys) v
      return (merged.1, r.2.bind fun _ => merged.2)
    else foldMerged step again r keys rest

/-- Folds the entries of a mapping that is merged, or of the mappings in a sequence that is not
itself an item of one. -/
def foldSource {σ : Type} (step : EntryStep σ) (again : FoldAgain σ) (isItem : Bool)
    (r : σ × Hidden) : Node → Decode (σ × Hidden)
  | .mapping _ _ es => do
    count
    if ← keysDistinct es then
      let r ← foldOwn step false es r
      foldMerged step again r (r.2.getD []) es
    else return r
  | .sequence _ _ ns => if isItem then throw .mergeOperand else foldSources step again r ns
  | .aliasOf index _ name target =>
    if target.isMapping then do
      count
      follow index name (foldSource step again true r target)
    else throw .mergeOperand
  | .loop index _ name target =>
    if target.isMapping then do
      count
      follow index name (again name target.index r)
    else throw .mergeOperand
  | .scalar .. => throw .mergeOperand

/-- Folds several mappings that are merged, of which earlier ones hide later ones. -/
def foldSources {σ : Type} (step : EntryStep σ) (again : FoldAgain σ) (r : σ × Hidden) :
    List Node → Decode (σ × Hidden)
  | [] => return r
  | n :: rest => do
    let r ← foldSource step again true r n
    foldSources step again r rest

end

/-- Merges collections again that aliases inside them stand for, up to `n` of them inside each
other. -/
def foldAgain {σ : Type} (step : EntryStep σ) : Nat → FoldAgain σ
  | 0 => fun name _ _ => throw (.selfReference name)
  | n + 1 => fun name index r => do
    foldSource step (foldAgain step n) true r (← loopTarget name index)

/-- Folds the entries of a mapping, its own before the ones it merges. -/
def foldEntries {σ : Type} (step : EntryStep σ) (start : σ) (es : List (Node × Node)) :
    Decode σ := do
  let (s, _) ← foldOwn step true es (start, none)
  let loops := (← get).loops.count
  let keys ← if es.any (·.1.isMerge) then keyValues (reentry loops) es else pure []
  let (s, _) ← foldMerged step (foldAgain step loops) (s, none) keys es
  return s

/-- Reads a mapping by folding its entries; null gives `whenNull`. -/
def mapping {σ : Type} (type : Text) (whenNull : Option σ) (start : σ) (step : EntryStep σ) :
    Node → Decode (Option σ) :=
  visit fun n => do
    match n with
    | .scalar _ tag t =>
      match ← scalarValue tag t with
      | .null => return whenNull
      | _ => wrongType n type
    | .mapping _ _ es =>
      if ← keysDistinct es then some <$> foldEntries step start es else return none
    | n => wrongType n type

/-- The table with a value under a key, in place of the one that is there. -/
def putEntry {α : Type} (entries : List (Text × α)) (key : Text) (a : α) : List (Text × α) :=
  match entries with
  | [] => [(key, a)]
  | (k, b) :: rest => if k == key then (key, a) :: rest else (k, b) :: putEntry rest key a

/-- Reads a mapping with values of one type.  A null value counts as `empty`, but does not replace a
value through a merge. -/
def table {α : Type} (type : Text) (empty : α) (value : Node → Decode (Option α)) :
    Node → Decode (Option (Option (List (Text × α)))) :=
  mapping type (some none) (some []) fun fresh entries? _ key v => do
    match ← value v with
    | some a => return entries?.map (putEntry · key a)
    | none =>
      let isSet := entries?.any fun entries => (entries.lookup key).isSome
      if v.tag == .null && (fresh || !isSet) then return entries?.map (putEntry · key empty)
      else return entries?

/-- Reads a mapping with known keys: `field` gives the reader for each of them, which changes the
record read so far. -/
def object {σ : Type} (type : Text) (start : σ) (field : Text → Option (σ → Node → Decode σ)) :
    Node → Decode (Option σ) := fun n => do
  let result ← mapping type none (start, ([] : List Text)) (fun _ (s, seen) k key v => do
    match field key with
    | none =>
      note (.unknownField k.line key type)
      return (s, seen)
    | some read =>
      if seen.contains key then
        note (.repeatedField k.line key type)
        return (s, seen)
      else return (← read s v, key :: seen)) n
  return result.map Prod.fst

end Decode

end TwigLint.Yaml
