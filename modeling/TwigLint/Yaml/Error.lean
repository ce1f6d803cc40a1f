import TwigLint.Crash
import TwigLint.Text.Quoted
import TwigLint.Yaml.Resolve

/-! # Errors

Why a YAML text cannot be read, or not as the kind of value that is wanted.
-/

namespace TwigLint.Yaml

/-- A place where a document does not have the wanted shape. -/
inductive Mismatch where
  /-- A value of one kind where a value of another type is wanted; collections have no value. -/
  | wrongType (line : Nat) (tag : Tag) (value : Text) (type : Text)
  | repeatedKey (line : Nat) (key : Text) (firstLine : Nat)
  | repeatedField (line : Nat) (name type : Text)
  | unknownField (line : Nat) (name type : Text)
  deriving DecidableEq, Repr

/-- The message of a mismatch.  A value of more than ten bytes is cut after seven; one that is
tagged as a collection is shown as it is. -/
def Mismatch.message : Mismatch → Text
  | .wrongType line tag value type =>
    let shown : Text :=
      if tag == .seq || tag == .map then value
      else if 10 < value.length then " \x60" ++ value.take 7 ++ "...\x60"
      else " \x60" ++ value ++ "\x60"
    "line " ++ Text.ofNat line ++ ": cannot unmarshal " ++ tag.label ++ shown ++ " into " ++ type
  | .repeatedKey line key firstLine =>
    "line " ++ Text.ofNat line ++ ": mapping key " ++ Text.quoted key ++
      " already defined at line " ++ Text.ofNat firstLine
  | .repeatedField line name type =>
    "line " ++ Text.ofNat line ++ ": field " ++ name ++ " already set in type " ++ type
  | .unknownField line name type =>
    "line " ++ Text.ofNat line ++ ": field " ++ name ++ " not found in type " ++ type

/-- Why a text cannot be read. -/
inductive Error where
  | malformed (fault : SyntaxFault)
  | unknownAnchor (name : Text)
  | selfReference (name : Text)
  | mergeOperand
  | notBase64
  | tooManyAliases
  | collectionKey (shown : Text)
  | crashed (c : Crash)
  | wrongTag (mismatch : TagMismatch)
  | mismatches (list : List Mismatch)

/-- The message of an error. -/
def Error.message : Error → Text
  | .malformed fault => "yaml: " ++ fault.message
  | .unknownAnchor name => "yaml: unknown anchor '" ++ name ++ "' referenced"
  | .selfReference name => "yaml: anchor '" ++ name ++ "' value contains itself"
  | .mergeOperand => "yaml: map merge requires map or sequence of maps as the value"
  | .notBase64 => "yaml: !!binary value contains invalid base64 data"
  | .tooManyAliases => "yaml: document contains excessive aliasing"
  | .collectionKey shown => "yaml: invalid map key: " ++ shown
  | .crashed c => c.message
  | .wrongTag mismatch => "yaml: " ++ mismatch.message
  | .mismatches list =>
    "yaml: unmarshal errors:\n  " ++ Text.join "\n  " (list.map Mismatch.message)

/-- Why the reading broke off, if it did. -/
def Error.crash? : Error → Option Crash
  | .crashed c => some c
  | _ => none

end TwigLint.Yaml
