import TwigLint.Lint.Scope.Basic

/-! # Operations on scopes

The changes a tracker goes through, as data.  What happens along a walk is a list of them.
-/

namespace TwigLint

/-- One change of a tracker. -/
inductive ScopeOp where
  | push (isolated : Bool) (owner : Option Node)
  | pop
  /-- Declares the target of an assignment or a loop, or the parameter of a macro. -/
  | declare (name : Text) (line : Int)
  /-- Declares a parameter of an arrow function or a key of a `with` hash. -/
  | declareParam (name : Text) (line : Int)
  /-- Declares an imported macro. -/
  | declareImport (name : Text) (line : Int)
  | inject (name : Text)
  | assign (name : Text) (line : Int)
  | use (name : Text)

namespace Tracker

/-- The tracker after one change. -/
def apply (t : Tracker) : ScopeOp → Tracker
  | .push isolated owner => t.push isolated owner
  | .pop => t.pop
  | .declare name line => t.declare name line .target
  | .declareParam name line => t.declare name line .param
  | .declareImport name line => t.declare name line .imported
  | .inject name => t.inject name
  | .assign name line => t.assign name line
  | .use name => t.use name

/-- The tracker after a list of changes. -/
def run (t : Tracker) (ops : List ScopeOp) : Tracker := ops.foldl apply t

end Tracker

end TwigLint
