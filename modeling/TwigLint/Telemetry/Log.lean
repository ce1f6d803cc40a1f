import TwigLint.Component.Data
import TwigLint.Output.Json
import TwigLint.Text.Quoted

/-! # Log lines

A log record has a level, a message and fields in order.  A logger writes records from some level on
as lines of `key=value` fields or of JSON, after fields of its own.
-/

namespace TwigLint

inductive LogLevel where
  | debug
  | info
  | warn
  | error
  deriving DecidableEq, Repr

namespace LogLevel

def label : LogLevel → Text
  | debug => "DEBUG"
  | info => "INFO"
  | warn => "WARN"
  | error => "ERROR"

def rank : LogLevel → Nat
  | debug => 0
  | info => 1
  | warn => 2
  | error => 3

/-- The level with a name in any case; the empty name stands for `info`. -/
def read? (name : Text) : Option LogLevel :=
  let word := name.lowerAscii
  if word == "debug" then some debug
  else if word == "info" || word.isEmpty then some info
  else if word == "warn" || word == "warning" then some warn
  else if word == "error" then some error
  else none

end LogLevel

inductive LogFormat where
  | json
  | text
  /-- Text without a time. -/
  | console
  deriving DecidableEq, Repr

/-- The format with a name in any case; the empty name stands for `console`. -/
def LogFormat.read? (name : Text) : Option LogFormat :=
  let word := name.lowerAscii
  if word == "json" then some json
  else if word == "text" then some text
  else if word == "console" || word.isEmpty then some console
  else none

structure LogRecord where
  level : LogLevel
  message : Text
  fields : List (Text × Data)

namespace LogRecord

/-- The key of a value that has none. -/
def missingKey : Text := "!BADKEY"

/-- Alternating keys and values as fields.  A value where a key should be, and a key without a
value, go under `missingKey`. -/
def pairs : List Data → List (Text × Data)
  | [] => []
  | [v] => [(missingKey, v)]
  | .text k :: v :: rest => (k, v) :: pairs rest
  | w :: v :: rest => (missingKey, w) :: pairs (v :: rest)

/-! ## Text lines -/

/-- A byte or character that makes a field value need quotes. -/
def unitNeedsQuotes : Text.Unit8 × Text → Bool
  | (.char c, _) =>
    if c < 0x80 then c ≤ 0x20 || c == 34 || c == 61
    else c == 0xfffd || Text.isSpaceCode c || !Text.isPrintable c
  | (.stray _, _) => true

/-- A key or value, quoted where needed. -/
def field (t : Text) : Text :=
  if t.isEmpty || (Text.units t).any unitNeedsQuotes then t.quoted else t

def textLine (time : Option Text) (r : LogRecord) : Text :=
  let leading : List Text := match time with
    | some t => ["time=" ++ t]
    | none => []
  let fields : List Text := r.fields.map fun (k, v) => field k ++ "=" ++ field v.render
  Text.join " " (leading ++ ["level=" ++ r.level.label, "msg=" ++ field r.message] ++ fields) ++
    "\n"

/-! ## JSON lines -/

mutual
/-- A value in JSON, maps sorted by key. -/
def jsonValue : Data → Json
  | .null => .null
  | .bool b => .bool b
  | .int n => .ofInt n
  | .float x => .number (FloatStyle.json.render x)
  | .text t => .text t
  | .list items => .list (jsonItems items)
  | .map fields => .object ((jsonFields fields).mergeSort fun a b => a.1.le b.1)
  | .time t => .text t.internet
  | .dictionary entries => .text (Data.render (.dictionary entries))

def jsonItems : List Data → List Json
  | [] => []
  | v :: rest => jsonValue v :: jsonItems rest

def jsonFields : List (Text × Data) → List (Text × Json)
  | [] => []
  | (k, v) :: rest => (k, jsonValue v) :: jsonFields rest
end

/-- The style of texts inside of lists and maps. -/
def innerStyle : Json.Style := { Json.logStyle with letters := true }

/-- A field of a JSON line. -/
def jsonField (k : Text) (v : Json) : Text :=
  let value := match v with
    | .text t => Json.quote Json.logStyle t
    | v => v.compact innerStyle
  Json.quote Json.logStyle k ++ ":" ++ value

def jsonLine (time : Text) (r : LogRecord) : Text :=
  let fields : List (Text × Json) :=
    [("time", .text time), ("level", .text r.level.label), ("msg", .text r.message)]
  let shown := (fields ++ jsonFields r.fields).map fun (k, v) => jsonField k v
  "\x7b" ++ Text.join "," shown ++ "\x7d\n"

end LogRecord

/-- The run, project, component and trace that a record belongs to. -/
structure LogScope where
  runId : Text
  project : Text
  component : Text
  traceId : Text

/-- The fields of a scope that are not empty. -/
def LogScope.fields (s : LogScope) : List (Text × Data) :=
  let all : List (Text × Text) := [("run_id", s.runId), ("project", s.project),
    ("component", s.component), ("trace_id", s.traceId)]
  (all.filter fun (_, v) => !v.isEmpty).map fun (k, v) => (k, .text v)

/-- Writes records from a level on, after the logger's own fields. -/
structure Logger where
  level : LogLevel
  format : LogFormat
  fields : List (Text × Data)

namespace Logger

/-- Why a logger cannot be made. -/
inductive SetupError where
  | level (name : Text)
  | format (name : Text)

def SetupError.message : SetupError → Text
  | .level name => "invalid log level: unknown log level: " ++ name
  | .format name => "invalid log format: unknown log format: " ++ name

/-- The logger for the given names of level and format. -/
def new (level format : Text) : Except SetupError Logger :=
  match LogLevel.read? level, LogFormat.read? format with
  | none, _ => .error (.level level)
  | some _, none => .error (.format format)
  | some l, some f => .ok ⟨l, f, []⟩

/-- The logger with more fields of its own. -/
def withFields (l : Logger) (fields : List (Text × Data)) : Logger :=
  { l with fields := l.fields ++ fields }

/-- The line for a record at a time; nothing when the record is below the level.  A field without
key and value is left out, and a console shows no field for a time. -/
def write (l : Logger) (time : Text) (r : LogRecord) : Text :=
  if r.level.rank < l.level.rank then []
  else
    let isEmpty : Text × Data → Bool := fun (k, v) => k.isEmpty && v matches .null
    let r := { r with fields := (l.fields ++ r.fields).filter fun f => !isEmpty f }
    match l.format with
    | .json => r.jsonLine time
    | .text => r.textLine (some time)
    | .console =>
      { r with fields := r.fields.filter fun f => f.1 != Text.ofString "time" }.textLine none

end Logger

end TwigLint
