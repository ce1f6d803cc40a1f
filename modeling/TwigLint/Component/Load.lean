import TwigLint.Component.Definition
import TwigLint.Files.Tree
import TwigLint.Yaml.Dynamic

/-! # Loading definitions

A definition is a YAML file beside its template.  Keys that a definition does not need are ignored.
Of the things that have the wrong shape the first one is reported.
-/

namespace TwigLint

/-- Why a definition cannot be loaded. -/
inductive LoadCause where
  | unreadable (e : FileError)
  | malformed (e : Yaml.Error)
  | notMapping (what : Text)
  | badValue (what : Text) (e : Yaml.Error)

/-- A cause with the file and, where known, the line. -/
structure LoadError where
  path : Text
  line? : Option Nat
  cause : LoadCause

/-- The wording of a cause. -/
def LoadCause.message : LoadCause → Text
  | .unreadable e => e.message
  | .malformed e => e.message
  | .notMapping what => what ++ " must be a mapping"
  | .badValue what e => what ++ ": " ++ e.message

/-- The message of an error. -/
def LoadError.message (e : LoadError) : Text :=
  match e.line? with
  | some line => e.path ++ ":" ++ Text.ofNat line ++ ": " ++ e.cause.message
  | none => e.path ++ ": " ++ e.cause.message

/-- Why the loading broke off, if it did. -/
def LoadError.crash? (e : LoadError) : Option Crash :=
  match e.cause with
  | .malformed e | .badValue _ e => e.crash?
  | _ => none

/-! ## Paths of components -/

namespace Component

/-- How the names of definition files end. -/
def definitionSuffix : Text := ".component.yml"

/-- How the names of template files end. -/
def templateSuffix : Text := ".twig"

/-- The path names a definition file. -/
def isDefinition (path : Text) : Bool := path.endsWith definitionSuffix

/-- The name of the component with a definition file. -/
def machineName (path : Text) : Text := (Path.base path).dropSuffix definitionSuffix

/-- The template of the component with a name and a definition file. -/
def templatePath (path name : Text) : Text := Path.join (Path.dir path) (name ++ templateSuffix)

/-- The definition file to which a changed file belongs, if any. -/
def definitionFor (path : Text) : Option Text :=
  if isDefinition path then some path
  else if path.endsWith templateSuffix then
    some (path.dropSuffix templateSuffix ++ definitionSuffix)
  else none

/-- The definition files to which changed files belong, each once, in bytewise order. -/
def definitionsOf (paths : List Text) : List Text :=
  Text.sort (paths.filterMap definitionFor).eraseDups

end Component

/-! ## The shape of a definition -/

namespace Definition

open Yaml (Decode)

/-- A wrong shape at a line. -/
abbrev Misshape := Nat × LoadCause

/-- A reading that notes the first wrong shape and goes on.  It may break off. -/
abbrev Shaped (α : Type) := StateT (Option Misshape) (Except Misshape) α

/-- Notes a wrong shape. -/
def complain (line : Nat) (cause : LoadCause) : Shaped Unit :=
  modify fun first => first.or (some (line, cause))

/-- Only a mapping or null has the right shape. -/
def expectMapping (n : Yaml.Node) (what : Text) : Shaped Unit :=
  if n.isMapping || n.isNull then return () else complain n.line (.notMapping what)

/-- The entries of a mapping, none for null. -/
def mappingOf (n : Yaml.Node) (what : Text) : Shaped (List (Yaml.Node × Yaml.Node)) := do
  expectMapping n what
  return n.entries

/-- The value read from a node, `empty` if it has none. -/
def decoded {α : Type} (loops : Yaml.Loops) (n : Yaml.Node) (what : Text) (empty : α)
    (read : Yaml.Node → Decode (Option α)) : Shaped α := do
  match (read n).complete loops with
  | .ok a? => return a?.getD empty
  | .error e =>
    if e.crash?.isSome then throw (n.line, .badValue what e)
    complain n.line (.badValue what e)
    return empty

/-- Types given as a list, or as a single one. -/
def typesOf (loops : Yaml.Loops) (name : Text) (n : Yaml.Node) : Shaped (List Text) :=
  if n.isSequence then decoded loops n ("property " ++ name ++ " type") [] Decode.texts
  else return [n.value]

mutual

/-- A property with a name, from the node behind its key. -/
def property (loops : Yaml.Loops) (name : Text) (line : Nat) : Yaml.Node → Shaped Property
  | .mapping _ _ es => propertyFields loops name (Property.new name line) es
  | n => do
    expectMapping n ("property " ++ name)
    return Property.new name line

/-- The fields of a property, read onto what is known of it. -/
def propertyFields (loops : Yaml.Loops) (name : Text) (p : Property) :
    List (Yaml.Node × Yaml.Node) → Shaped Property
  | [] => return p
  | (k, v) :: rest => do
    let key := k.value
    let p ←
      if key == "title" then pure { p with title := v.value }
      else if key == "type" then do
        pure { p with types := ← typesOf loops name v }
      else if key == "$ref" then pure { p with ref := v.value }
      else if key == "enum" then do
        let enum ← decoded loops v ("property " ++ name ++ " enum") [] Decode.dataList
        pure { p with enum }
      else if key == "default" then do
        let value ← decoded loops v ("property " ++ name ++ " default") Data.null Decode.data
        pure { p with default? := some value }
      else if key == "properties" then
        pure { p with properties := some (v.entries.map (·.1.value)) }
      else if key == "items" then do
        pure { p with items := some (← property loops (name ++ ".items") k.line v) }
      else pure p
    propertyFields loops name p rest

end

/-- The properties of a component; those named in `required` are required. -/
def properties (loops : Yaml.Loops) (required : List Text) :
    List (Yaml.Node × Yaml.Node) → Shaped (List Property)
  | [] => return []
  | (k, v) :: rest => do
    let p ← property loops k.value k.line v
    let more ← properties loops required rest
    return { p with required := required.contains p.name } :: more

/-- The value under a key, the last one if it is repeated. -/
def under? (key : Text) (es : List (Yaml.Node × Yaml.Node)) : Option Yaml.Node :=
  (es.filter (·.1.value == key)).getLast?.map Prod.snd

/-- The names of required properties, if this is the entry with them, read onto a definition. -/
def readRequired (loops : Yaml.Loops) (d : Definition) (entry : Yaml.Node × Yaml.Node) :
    Shaped Definition := do
  if entry.1.value == "required" then
    let names ← decoded loops entry.2 "props.required" [] Decode.texts
    return { d with requiredLine := entry.1.line, requiredProps := names }
  else return d

/-- The props section, read onto a definition. -/
def readProps (loops : Yaml.Loops) (d : Definition) (n : Yaml.Node) : Shaped Definition := do
  let es ← mappingOf n "props"
  let d ← es.foldlM (readRequired loops) d
  match under? "properties" es with
  | none => return d
  | some v =>
    let more ← properties loops d.requiredProps (← mappingOf v "props.properties")
    return { d with props := d.props ++ more }

/-- The text under a key of a mapping. -/
def textUnder (key : Text) (n : Yaml.Node) : Text := ((under? key n.entries).map (·.value)).getD []

/-- The slots section. -/
def slotsOf (n : Yaml.Node) : Shaped (List SlotDef) := do
  let es ← mappingOf n "slots"
  return es.map fun (k, v) =>
    ⟨k.value, textUnder "title" v, k.line, textUnder "required" v == "true"⟩

/-- The variants section. -/
def variantsOf (n : Yaml.Node) : Shaped (List Variant) := do
  let es ← mappingOf n "variants"
  return es.map fun (k, v) => ⟨k.value, textUnder "title" v, k.line⟩

/-- One section, read onto a definition. -/
def readSection (loops : Yaml.Loops) (d : Definition) (entry : Yaml.Node × Yaml.Node) :
    Shaped Definition := do
  let key := entry.1.value
  if key == "name" then return { d with label := entry.2.value }
  else if key == "props" then readProps loops { d with propsLine := entry.1.line } entry.2
  else if key == "slots" then return { d with slots := ← slotsOf entry.2 }
  else if key == "variants" then
    return { d with variants := ← variantsOf entry.2, variantsLine := entry.1.line }
  else return d

/-- The definition that a document describes; an empty one declares nothing. -/
def ofDocument (start : Definition) : Option Yaml.Document → Except Misshape Definition
  | none => .ok start
  | some doc => do
    if !doc.root.isMapping then throw (doc.root.line, .notMapping "definition")
    match ← (doc.root.entries.foldlM (readSection doc.loops) start).run none with
    | (_, some first) => throw first
    | (d, none) => return d

/-- The definition in a text. -/
def parse (source path provider : Text) : Except LoadError Definition :=
  match Yaml.read source with
  | .error e => .error ⟨path, none, .malformed e⟩
  | .ok doc? =>
    match ofDocument (new provider (Component.machineName path) path) doc? with
    | .ok d => .ok d
    | .error (line, cause) => .error ⟨path, some line, cause⟩

/-- The definition in a file, with the template beside it if there is one. -/
def load (w : Workspace) (path provider : Text) : Except LoadError Definition :=
  match w.read path with
  | .error e => .error ⟨path, none, .unreadable e⟩
  | .ok source => do
    let d ← parse source path provider
    let template := Component.templatePath path d.name
    match w.read template with
    | .ok text => return { d with template := some (template, text) }
    | .error e =>
      if e.fault == .missing then return d else throw ⟨template, none, .unreadable e⟩

end Definition

/-! ## Finding definitions -/

/-- Why the definitions of a project cannot be loaded. -/
inductive DiscoverError where
  | unreadable (root : Text) (e : FileError)
  | load (root : Text) (e : LoadError)

/-- The message of an error. -/
def DiscoverError.message : DiscoverError → Text
  | .unreadable root e => "discover components in " ++ root ++ ": " ++ e.message
  | .load root e => "discover components in " ++ root ++ ": " ++ e.message

/-- Why the loading broke off, if it did. -/
def DiscoverError.crash? : DiscoverError → Option Crash
  | .load _ e => e.crash?
  | .unreadable _ _ => none

namespace Definition

/-- Folders that are never searched. -/
def skippedFolders : List Text := [".git", "node_modules", "vendor"]

/-- The provider of the components of a project: the name of its directory. -/
def providerOf (w : Workspace) (root : Text) : Text := Path.base (w.absolute root)

/-- The definitions below a directory, in the order of their paths. -/
def discover (w : Workspace) (root provider : Text) : Except DiscoverError (List Definition) :=
  let provider := if provider.isEmpty then providerOf w root else provider
  match w.find root with
  | .error fault => .error (.unreadable root ⟨"lstat", root, fault⟩)
  | .ok tree =>
    let paths := (tree.walk skippedFolders.contains root).map Prod.fst
    (paths.filter Component.isDefinition).mapM fun path =>
      match load w path provider with
      | .ok d => .ok d
      | .error e => .error (.load root e)

end Definition

end TwigLint
