import TwigLint.Component.Definition

/-! # Checks of definitions

Findings about a definition, in the order of the definition: variants, slots, required props, then
each property.
-/

namespace TwigLint.Schema

/-- The value is one of an enumeration. -/
def inEnum (value : Data) (enum : List Data) : Bool := enum.any (Data.looselyEqual · value)

/-- A schema of an object that lists no properties. -/
def isEmptyObject (p : Property) : Bool :=
  p.isType "object" && p.ref.isEmpty && (p.properties.getD []).isEmpty

/-- What is wrong with the shape of a property that has a type. -/
def shapeMessage? (p : Property) : Option Text :=
  if isEmptyObject p then some "Empty object."
  else if p.isType "array" && p.ref.isEmpty && p.items.isNone then some "Empty array."
  else if p.isType "array" && p.items.any isEmptyObject then some "Array of empty object."
  else none

def checkProperty (id : Text) (p : Property) : List Diagnostic :=
  let report := Diagnostic.inSchema id p.line
  let enum :=
    match p.default? with
    | some value =>
      if !p.enum.isEmpty && !inEnum value p.enum then
        [report .error "Default value must be in the enum."]
      else []
    | none => []
  let shape :=
    if !p.hasType then [report .error "Missing type for this property."]
    else
      match shapeMessage? p with
      | some message => [report .warning message]
      | none => []
  enum ++ shape

/-- All findings about a definition. -/
def check (d : Definition) : List Diagnostic :=
  let report := Diagnostic.inSchema d.id
  (if d.variants.length = 1 then
    [report d.variantsLine .notice "A single variant does not need to be declared."]
    else []) ++
  (d.slots.filter (·.required)).map
    (fun s => report s.line .warning "Required slots are not recommended.") ++
  (if d.requiredProps.isEmpty then []
    else [report d.requiredLine .warning
      "Required props are not recommended. Use default values instead."]) ++
  d.props.flatMap (checkProperty d.id)

end TwigLint.Schema
