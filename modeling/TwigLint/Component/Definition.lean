import TwigLint.Component.Data
import TwigLint.Lint.Rule

/-! # Component definitions

What a definition file declares: props, slots and variants, with the lines where they stand.
-/

namespace TwigLint

/-- A declared property, in a subset of JSON Schema. -/
structure Property where
  name : Text
  title : Text
  line : Int
  types : List Text
  ref : Text
  enum : List Data
  default? : Option Data
  /-- Names of the properties of an object; none when the schema does not list any. -/
  properties : Option (List Text)
  items : Option Property
  required : Bool

/-- A declared slot. -/
structure SlotDef where
  name : Text
  title : Text
  line : Int
  required : Bool
  deriving DecidableEq, Repr

/-- A declared variant. -/
structure Variant where
  name : Text
  title : Text
  line : Int
  deriving DecidableEq, Repr

/-- A component.  Lines of keys that do not occur are zero. -/
structure Definition where
  id : Text
  provider : Text
  name : Text
  label : Text
  path : Text
  /-- The template next to the definition: its path and its source. -/
  template : Option (Text × Text)
  props : List Property
  slots : List SlotDef
  variants : List Variant
  propsLine : Int
  requiredLine : Int
  variantsLine : Int
  requiredProps : List Text

namespace Property

instance : Inhabited Property := ⟨[], [], 0, [], [], [], none, none, none, false⟩

/-- A property of which only the name and line are known. -/
def new (name : Text) (line : Int) : Property :=
  ⟨name, [], line, [], [], [], none, none, none, false⟩

/-- Types of the references to well-known schemas. -/
def wellKnownTypes : List (Text × Text) :=
  [("attributes", "object"), ("boolean", "boolean"), ("enum", "enum"), ("enum_list", "list"),
    ("identifier", "string"), ("links", "list"), ("list", "list"), ("machine_name", "string"),
    ("number", "number"), ("slot", "slot"), ("string", "string"), ("url", "string")]

/-- The class of a declared type; `null` has none, and any unknown type is an object. -/
def classOf? (type : Text) : Option Text :=
  if type == "null" then none
  else if type == "boolean" then some "boolean"
  else if type == "integer" || type == "number" then some "number"
  else if type == "string" then some "string"
  else if type == "array" then some "list"
  else some "object"

/-- The class of a reference. -/
def refClass (ref : Text) : Text :=
  match Text.find? "://" ref with
  | some (scheme, rest) =>
    if scheme == "ui-patterns" then (wellKnownTypes.lookup (rest.drop 3)).getD [] else "object"
  | none => if ref.isEmpty then [] else "object"

/-- The class of a property: an enumeration wins over the declared types, and these over the
reference.  It is empty when nothing is declared. -/
def inputClass (p : Property) : Text :=
  if !p.enum.isEmpty then "enum"
  else
    match p.types.findSome? classOf? with
    | some c => c
    | none => refClass p.ref

/-- A type or a reference is declared. -/
def hasType (p : Property) : Bool := !p.types.isEmpty || !p.ref.isEmpty

def isType (p : Property) (type : Text) : Bool := p.types.contains type

end Property

namespace Definition

/-- A definition that declares nothing. -/
def new (provider name path : Text) : Definition :=
  ⟨provider ++ ":" ++ name, provider, name, [], path, none, [], [], [], 0, 0, 0, []⟩

/-- The inputs of a component: props, then slots. -/
def inputs (d : Definition) : List Input :=
  d.props.map (fun p => ⟨p.name, p.inputClass⟩) ++ d.slots.map fun s => ⟨s.name, "slot"⟩

/-- The definition with an identifier. -/
def find? (ds : List Definition) (id : Text) : Option Definition := ds.find? (·.id == id)

/-- The message for an identifier that no definition has. -/
def notFoundMessage (id : Text) : Text := "component not found: " ++ id

end Definition

end TwigLint
