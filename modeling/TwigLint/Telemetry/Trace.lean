import TwigLint.Lint.Diagnostic
import TwigLint.Number.Numeral
import TwigLint.Number.Shortest
import TwigLint.Output.Json

/-! # Traces

A run may continue a trace that the environment names, and records what happens in spans.
-/

namespace TwigLint

/-! ## Trace contexts -/

/-- The trace and the span that a run continues. -/
structure TraceContext where
  traceId : Text
  spanId : Text
  sampled : Bool
  /-- Entries of vendors, in order. -/
  state : List (Text × Text)
  deriving DecidableEq, Repr

namespace TraceContext

def isHex (t : Text) : Bool := t.all fun b => (Text.hexValue? b).isSome

def isZero (t : Text) : Bool := t.all fun (b : UInt8) => b == '0'

/-- The parts of a trace parent: version, trace, span and flags. -/
def parts? (t : Text) : Option (Text × Text × Text × Text) :=
  match t.splitOn '-' with
  | [version, trace, span, flags] => some (version, trace, span, flags)
  | _ => none

/-- The text has the form of a trace parent. -/
def isWellFormed (t : Text) : Bool :=
  match parts? t with
  | none => false
  | some (version, trace, span, flags) =>
    let hex (n : Nat) (p : Text) := p.length == n && isHex p
    hex 2 version && hex 32 trace && hex 16 span && hex 2 flags && !isZero trace && !isZero span

/-! ### Trace states -/

def isLowerOrDigit (b : UInt8) : Bool := Text.isLower b || Text.isDigit b

/-- A character of a key after the first.  Only the lowest eight bits of a letter count. -/
def isKeyUnit : Text.Unit8 × Text → Bool
  | (.char c, _) => isLowerOrDigit c.toUInt8 || c == 95 || c == 45 || c == 42 || c == 47
  | (.stray _, _) => false

/-- A part of a key with a bounded number of characters after the first. -/
def isKeyPart (isFirst : UInt8 → Bool) (limit : Nat) : Text → Bool
  | [] => false
  | b :: rest => isFirst b && rest.length ≤ limit && (Text.units rest).all isKeyUnit

/-- A key, or a tenant and a system with an at sign between them. -/
def isKey (t : Text) : Bool :=
  match Text.find? "@" t with
  | none => isKeyPart Text.isLower 255 t
  | some (tenant, system) =>
    isKeyPart isLowerOrDigit 240 tenant && isKeyPart Text.isLower 13 (system.drop 1)

def isValueByte (b : UInt8) : Bool := 0x20 ≤ b && b ≤ 0x7e && b != ',' && b != '='

def isValue (t : Text) : Bool :=
  !t.isEmpty && t.length ≤ 256 && t.all isValueByte && t.getLast? != some ' '

/-- An entry of a trace state. -/
def entry? (t : Text) : Option (Text × Text) :=
  let isBlank (b : UInt8) : Bool := b == ' ' || b == '\t'
  match Text.find? "=" t with
  | none => none
  | some (k, v) =>
    let key := Text.trimLeft isBlank k
    let value := Text.trimRight isBlank (v.drop 1)
    if isKey key && isValue value then some (key, value) else none

/-- The largest number of entries of a trace state. -/
def maxEntries : Nat := 32

/-- The entries of a trace state; one with a fault has none. -/
def readState (t : Text) : List (Text × Text) :=
  match ((t.splitOn ',').filter (!·.isEmpty)).mapM entry? with
  | none => []
  | some es =>
    let keys := es.map Prod.fst
    if keys.eraseDups.length == keys.length && es.length ≤ maxEntries then es else []

/-- A trace state as text. -/
def stateText (state : List (Text × Text)) : Text :=
  Text.join "," (state.map fun (k, v) => k ++ "=" ++ v)

/-- Reads a trace parent and a trace state.  Upper-case digits, the highest version, and in version
zero flags above two are refused. -/
def read? (parent state : Text) : Option TraceContext :=
  if !isWellFormed parent || parent.any Text.isUpper then none
  else
    match parts? parent with
    | none => none
    | some (version, trace, span, flags) =>
      let number (t : Text) : Nat := (Numeral.natInBase? 16 t).getD 0
      if number version = 255 || (number version = 0 && 2 < number flags) then none
      else some ⟨trace, span, number flags % 2 == 1, readState state⟩

end TraceContext

/-! ## Sampling -/

/-- Why traces cannot be sampled as asked for. -/
inductive SamplerError where
  | ratio (x : Double)
  | unknown (name : Text)

def SamplerError.message : SamplerError → Text
  | .ratio x => "sample ratio must be between 0.0 and 1.0, got " ++ FloatStyle.fixed 6 x
  | .unknown name => "unknown sampler strategy: " ++ name ++ " (valid: always, never, ratio)"

/-- A way of sampling can be used. -/
def checkSampler (name : Text) (ratio : Double) : Except SamplerError Unit :=
  if name == "always" || name == "never" then .ok ()
  else if name == "ratio" then
    if ratio.lt .zero || (Double.ofInt 1).lt ratio then .error (.ratio ratio) else .ok ()
  else .error (.unknown name)

/-! ## Spans -/

/-- The status of a span; success is final. -/
inductive SpanStatus where
  | unset
  | error (description : Text)
  | ok
  deriving DecidableEq, Repr

namespace SpanStatus

def label : SpanStatus → Text
  | unset => "Unset"
  | error _ => "Error"
  | ok => "Ok"

def description : SpanStatus → Text
  | error d => d
  | _ => []

end SpanStatus

/-- What is recorded of a piece of work: attributes as text, and the names of events. -/
structure Span where
  attributes : List (Text × Text)
  events : List Text
  status : SpanStatus

namespace Span

def empty : Span := ⟨[], [], .unset⟩

/-- Sets an attribute, which replaces one of the same name. -/
def set (s : Span) (key value : Text) : Span :=
  { s with attributes :=
      if s.attributes.any (·.1 == key) then
        s.attributes.map fun (k, v) => (k, if k == key then value else v)
      else s.attributes ++ [(key, value)] }

/-- How many events are kept. -/
def eventLimit : Nat := 128

/-- Adds an event; the oldest ones beyond the limit are dropped. -/
def addEvent (s : Span) (name : Text) : Span :=
  let all := s.events ++ [name]
  { s with events := all.drop (all.length - eventLimit) }

/-- Describes a run. -/
def describeRun (s : Span) (runId trigger : Text) (projects : List Text) : Span :=
  let listed := (Json.list (projects.map .text)).compact Json.reportStyle
  ((s.set "sdclint.run_id" runId).set "sdclint.trigger" trigger).set "sdclint.project" listed

/-- Describes a component. -/
def describeComponent (s : Span) (id template : Text) : Span :=
  let s := s.set "sdclint.component" id
  if template.isEmpty then s else s.set "sdclint.template" template

/-- The most severe of some severities. -/
def worst (first : Severity) (rest : List Severity) : Severity :=
  rest.foldl (fun w s => if s.atLeast w then s else w) first

/-- Describes findings. -/
def describeResult (s : Span) (ds : List Diagnostic) : Span :=
  let s := s.set "sdclint.diagnostics" (Text.ofNat ds.length)
  match ds.map (·.severity) with
  | [] => s
  | first :: rest => s.set "sdclint.max_severity" (worst first rest).name

/-- Records an error. -/
def recordError (s : Span) (message : Text) : Span :=
  ((s.set "error" "true").set "error.message" message).addEvent "exception"

/-- Ends with an error, or with success. -/
def setStatus (s : Span) (error? : Option Text) : Span :=
  match s.status, error? with
  | .ok, some _ => s
  | _, some message => { s with status := .error message }
  | _, none => { s with status := .ok }

end Span

end TwigLint
