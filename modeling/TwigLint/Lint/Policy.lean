import TwigLint.Lint.Severity
import TwigLint.Crash

/-! # Name policies

A policy table sorts the names of filters, functions or variables into buckets.  The buckets are
asked in a fixed order, and a name in none of them is unclassified, or gray when the table reports
such names.  An overlay moves names to other buckets.
-/

namespace TwigLint.Policy

/-- Names with a hint each; every name occurs once. -/
abbrev Hints := List (Text × Text)

/-- What a table says about a name. -/
inductive Verdict where
  | unclassified
  | ignore
  | allow
  /-- Deprecated: the name still works but should be given up. -/
  | retire
  | warn
  | forbid
  | gray
  deriving DecidableEq, Repr

namespace Verdict

def label : Verdict → Text
  | unclassified => "unclassified"
  | ignore => "ignore"
  | allow => "allow"
  | retire => "deprecate"
  | warn => "warn"
  | forbid => "forbid"
  | gray => "gray"

/-- The first words of the message about a name, for the verdicts that are reported. -/
def heading? : Verdict → Option Text
  | retire => some "Deprecated"
  | warn => some "Careful with"
  | forbid => some "Forbidden"
  | gray => some "Gray list"
  | _ => none

/-- The severity of a reported verdict. -/
def severity : Verdict → Severity
  | forbid => .error
  | _ => .warning

end Verdict

/-- The answer of a table about a name. -/
structure Classification where
  verdict : Verdict
  name : Text
  hint : Text
  message : Text
  severity : Severity
  deriving DecidableEq, Repr

namespace Classification

/-- A verdict without a message. -/
def silent (verdict : Verdict) (name : Text) : Classification := ⟨verdict, name, [], [], ⟨0⟩⟩

/-- The answer is worth a diagnostic. -/
def isReportable (c : Classification) : Bool := !c.message.isEmpty

end Classification

/-- A table of names. -/
structure Table where
  /-- What the names are names of, for messages. -/
  family : Text
  ignore : List Text
  allow : List Text
  retire : Hints
  warn : Hints
  forbid : Hints
  /-- Names in no bucket are reported. -/
  graylist : Bool
  deriving DecidableEq, Repr

/-- Changes to a table.  A name that an overlay lists is taken out of all other buckets. -/
structure Overlay where
  ignore : List Text
  allow : List Text
  retire : Option Hints
  warn : Option Hints
  forbid : Option Hints
  graylist : Option Bool
  deriving DecidableEq, Repr

/-- The overlay that changes nothing. -/
def Overlay.empty : Overlay := ⟨[], [], none, none, none, none⟩

/-- The overlay changes nothing. -/
def Overlay.isEmpty (o : Overlay) : Bool :=
  o.ignore.isEmpty && o.allow.isEmpty && (o.retire.getD []).isEmpty &&
    (o.warn.getD []).isEmpty && (o.forbid.getD []).isEmpty && o.graylist.isNone

namespace Table

/-- The answer for a name in a bucket that is reported. -/
def reported (t : Table) (verdict : Verdict) (heading name hint : Text) : Classification :=
  let family : Text := if t.family.isEmpty then "name" else t.family
  let tail : Text := if hint.isEmpty then [] else " " ++ hint
  ⟨verdict, name, hint, heading ++ " " ++ family ++ ": '" ++ name ++ "'." ++ tail,
    verdict.severity⟩

/-- The answer for a verdict, with a message when the verdict has one. -/
def answer (t : Table) (verdict : Verdict) (name hint : Text) : Classification :=
  match verdict.heading? with
  | some heading => t.reported verdict heading name hint
  | none => .silent verdict name

/-- Asks the buckets in order: ignore, allow, retire, warn, forbid. -/
def classify (t : Table) (name : Text) : Classification :=
  if t.ignore.contains name then t.answer .ignore name []
  else if t.allow.contains name then t.answer .allow name []
  else
    match t.retire.lookup name with
    | some hint => t.answer .retire name hint
    | none =>
      match t.warn.lookup name with
      | some hint => t.answer .warn name hint
      | none =>
        match t.forbid.lookup name with
        | some hint => t.answer .forbid name hint
        | none => t.answer (if t.graylist then .gray else .unclassified) name []

/-- The hints without a name. -/
def withoutName (name : Text) (hs : Hints) : Hints := hs.filter (·.1 != name)

/-- The table without a name. -/
def remove (t : Table) (name : Text) : Table :=
  { t with
    ignore := t.ignore.filter (· != name)
    allow := t.allow.filter (· != name)
    retire := withoutName name t.retire
    warn := withoutName name t.warn
    forbid := withoutName name t.forbid }

def addIgnore (t : Table) (name : Text) : Table :=
  let t := t.remove name
  { t with ignore := t.ignore ++ [name] }

def addAllow (t : Table) (name : Text) : Table :=
  let t := t.remove name
  { t with allow := t.allow ++ [name] }

def addRetire (t : Table) (entry : Text × Text) : Table :=
  let t := t.remove entry.1
  { t with retire := t.retire ++ [entry] }

def addWarn (t : Table) (entry : Text × Text) : Table :=
  let t := t.remove entry.1
  { t with warn := t.warn ++ [entry] }

def addForbid (t : Table) (entry : Text × Text) : Table :=
  let t := t.remove entry.1
  { t with forbid := t.forbid ++ [entry] }

/-- The table with an overlay applied, bucket by bucket; a later bucket wins. -/
def merge (t : Table) (o : Overlay) : Table :=
  let t := o.ignore.foldl addIgnore t
  let t := o.allow.foldl addAllow t
  let t := (o.retire.getD []).foldl addRetire t
  let t := (o.warn.getD []).foldl addWarn t
  let t := (o.forbid.getD []).foldl addForbid t
  { t with graylist := o.graylist.getD t.graylist }

/-- Every entry of the table with its bucket, in bucket order. -/
def entries (t : Table) : List (Text × Verdict) :=
  t.ignore.map (·, .ignore) ++ t.allow.map (·, .allow) ++
    t.retire.map (fun e => (e.1, .retire)) ++ t.warn.map (fun e => (e.1, .warn)) ++
    t.forbid.map (fun e => (e.1, .forbid))

/-- Every listed name with the buckets that list it. -/
def buckets (t : Table) : List (Text × List Verdict) :=
  (t.entries.map Prod.fst).eraseDups.map fun name =>
    (name, (t.entries.filter (·.1 == name)).map Prod.snd)

/-- The names that are listed more than once, as messages show them. -/
def conflicts (t : Table) : List Text :=
  Text.sort ((t.buckets.filter fun (_, vs) => 2 ≤ vs.length).map fun (name, vs) =>
    "'" ++ name ++ "' (" ++ Text.join ", " (vs.map Verdict.label) ++ ")")

/-- The complaint about names that are listed more than once. -/
def complaint? (t : Table) : Option Text :=
  if t.conflicts.isEmpty then none
  else some (t.family ++ ": names in more than one bucket: " ++ Text.join "; " t.conflicts)

/-- Number of entries. -/
def size (t : Table) : Nat :=
  t.ignore.length + t.allow.length + t.retire.length + t.warn.length + t.forbid.length

end Table

/-- The answer about a name where there may be no table. -/
def classify (t : Option Table) (name : Text) : Classification :=
  match t with
  | some t => t.classify name
  | none => .silent .unclassified name

/-- An operation that needs a table. -/
def withTable {α : Type} (t : Option Table) (f : Table → α) : Except Crash α :=
  match t with
  | some t => .ok (f t)
  | none => .error .missingValue

end TwigLint.Policy
