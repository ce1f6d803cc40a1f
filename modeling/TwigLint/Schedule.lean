import TwigLint.Crash
import TwigLint.Duration
import TwigLint.Number.Numeral
import TwigLint.Schedule.Zone
import TwigLint.Text.Quoted
import TwigLint.Text.Utf8

/-! # Schedules

Cron expressions of five fields, and descriptors such as `@hourly` and `@every 30m`.
-/

namespace TwigLint

/-- Why a text is no schedule. -/
inductive ScheduleFault where
  | empty
  | fieldCount (fields : List Text)
  | badNumber (t : Text) (fault : Numeral.IntFault)
  | negative (n : Int) (t : Text)
  | hyphens (t : Text)
  | slashes (t : Text)
  | belowMinimum (n minimum : Nat) (t : Text)
  | aboveMaximum (n maximum : Nat) (t : Text)
  | reversed (first last : Nat) (t : Text)
  | zeroStep (t : Text)
  | badDuration (descriptor t : Text) (fault : Duration.Fault)
  | unknownDescriptor (t : Text)
  | unknownZone (name : Text)
  | badZone (name : Text)
  | crashed (c : Crash)
  deriving DecidableEq, Repr

/-- The wording of a fault. -/
def ScheduleFault.message : ScheduleFault → Text
  | .empty => "empty spec string"
  | .fieldCount fields =>
    "expected exactly 5 fields, found " ++ Text.ofNat fields.length ++ ": [" ++
      Text.join " " fields ++ "]"
  | .badNumber t fault =>
    "failed to parse int from " ++ t ++ ": strconv.Atoi: parsing " ++ t.quoted ++ ": " ++
      fault.message
  | .negative n t => "negative number (" ++ Text.ofInt n ++ ") not allowed: " ++ t
  | .hyphens t => "too many hyphens: " ++ t
  | .slashes t => "too many slashes: " ++ t
  | .belowMinimum n minimum t =>
    "beginning of range (" ++ Text.ofNat n ++ ") below minimum (" ++ Text.ofNat minimum ++ "): " ++
      t
  | .aboveMaximum n maximum t =>
    "end of range (" ++ Text.ofNat n ++ ") above maximum (" ++ Text.ofNat maximum ++ "): " ++ t
  | .reversed first last t =>
    "beginning of range (" ++ Text.ofNat first ++ ") beyond end of range (" ++ Text.ofNat last ++
      "): " ++ t
  | .zeroStep t => "step of range should be a positive number: " ++ t
  | .badDuration descriptor t fault =>
    "failed to parse duration " ++ descriptor ++ ": " ++ fault.message t
  | .unknownDescriptor t => "unrecognized descriptor: " ++ t
  | .unknownZone name => "provided bad location " ++ name ++ ": unknown time zone " ++ name
  | .badZone name => "provided bad location " ++ name ++ ": time: invalid location name"
  | .crashed c => c.message

/-- The values `first`, `first + step`, … up to `last`. -/
structure Slice where
  first : Nat
  last : Nat
  step : Nat
  deriving DecidableEq, Repr

/-- The range of a field, and names for some of its values. -/
structure FieldRange where
  minimum : Nat
  maximum : Nat
  names : List Text

/-- When runs take place. -/
inductive Schedule where
  | calendar (minutes hours days months weekdays : List Slice)
  | every (nanoseconds : Int)
  deriving DecidableEq, Repr

namespace Schedule

/-- A schedule, or why it is none. -/
abbrev Reading (α : Type) := Except ScheduleFault α

def minutes : FieldRange := ⟨0, 59, []⟩

def hours : FieldRange := ⟨0, 23, []⟩

def days : FieldRange := ⟨1, 31, []⟩

def months : FieldRange :=
  ⟨1, 12, ["jan", "feb", "mar", "apr", "may", "jun", "jul", "aug", "sep", "oct", "nov", "dec"]⟩

def weekdays : FieldRange := ⟨0, 6, ["sun", "mon", "tue", "wed", "thu", "fri", "sat"]⟩

/-- A number that is not negative. -/
def number (t : Text) : Reading Nat := do
  let n ← (Numeral.readInt t).mapError (.badNumber t)
  if n < 0 then throw (.negative n t)
  return n.toNat

/-- A number or a name of a field; the names count up from the least value. -/
def value (r : FieldRange) (t : Text) : Reading Nat :=
  match r.names.findIdx? (· == t.lowerAscii) with
  | some i => .ok (r.minimum + i)
  | none => number t

/-- The bounds written before a step, and whether only the lower one is written. -/
def bounds (r : FieldRange) (t whole : Text) : Reading (Nat × Nat × Bool) :=
  let parts := t.splitOn '-'
  let low := parts.headD []
  let single := parts.length == 1
  if low == "*" || low == "?" then .ok (r.minimum, r.maximum, single)
  else do
    let first ← value r low
    match parts with
    | [_] => return (first, first, single)
    | [_, high] => return (first, ← value r high, single)
    | _ => throw (.hyphens whole)

/-- One element of a field: a value or range with an optional step.  A single value with a step
reaches to the end of the field. -/
def slice (r : FieldRange) (t : Text) : Reading Slice := do
  let parts := t.splitOn '/'
  let (first, last, single) ← bounds r (parts.headD []) t
  let (last, step) ← match parts with
    | [_] => pure (last, 1)
    | [_, step] => do
      let step ← number step
      pure (if single then r.maximum else last, step)
    | _ => throw (.slashes t)
  if first < r.minimum then throw (.belowMinimum first r.minimum t)
  else if r.maximum < last then throw (.aboveMaximum last r.maximum t)
  else if last < first then throw (.reversed first last t)
  else if step = 0 then throw (.zeroStep t)
  else return ⟨first, last, step⟩

/-- A field: elements with commas between them. -/
def field (r : FieldRange) (t : Text) : Reading (List Slice) :=
  ((t.splitOn ',').filter (!·.isEmpty)).mapM (slice r)

/-- All values of a field. -/
def all (r : FieldRange) : List Slice := [⟨r.minimum, r.maximum, 1⟩]

/-- One value of a field. -/
def only (n : Nat) : List Slice := [⟨n, n, 1⟩]

/-- The schedule with a name. -/
def named? (t : Text) : Option Schedule :=
  if t == "@yearly" || t == "@annually" then
    some (.calendar (only 0) (only 0) (only 1) (only 1) (all weekdays))
  else if t == "@monthly" then
    some (.calendar (only 0) (only 0) (only 1) (all months) (all weekdays))
  else if t == "@weekly" then some (.calendar (only 0) (only 0) (all days) (all months) (only 0))
  else if t == "@daily" || t == "@midnight" then
    some (.calendar (only 0) (only 0) (all days) (all months) (all weekdays))
  else if t == "@hourly" then
    some (.calendar (only 0) (all hours) (all days) (all months) (all weekdays))
  else none

/-- A schedule given by a name or an interval. -/
def descriptor (t : Text) : Reading Schedule :=
  match named? t, Text.after? "@every " t with
  | some s, _ => .ok s
  | none, some span =>
    match Duration.parse span with
    | .ok n => .ok (.every n)
    | .error fault => .error (.badDuration t span fault)
  | none, none => .error (.unknownDescriptor t)

/-- Five fields. -/
def calendarOf (t : Text) : Reading Schedule := do
  match t.fields with
  | [m, h, d, mo, w] =>
    return .calendar (← field minutes m) (← field hours h) (← field days d) (← field months mo)
      (← field weekdays w)
  | fields => throw (.fieldCount fields)

/-- Accepts the name of a time zone. -/
def checkZone (name : Text) : Reading Unit :=
  if name.isEmpty || name == "Local" || Zone.isKnown name then .ok ()
  else if name.includes ".." || name.startsWith "/" || name.startsWith "\\" then
    .error (.badZone name)
  else .error (.unknownZone name)

/-- The schedule without the time zone in front of it.  A zone ends at a blank, and the reading
breaks off where there is none. -/
def withoutZone (t : Text) : Reading Text := do
  match (Text.after? "TZ=" t).or (Text.after? "CRON_TZ=" t) with
  | none => return t
  | some rest =>
    let name := rest.takeWhile fun b => b != (' ' : UInt8)
    if name.length == rest.length then throw (.crashed (.badRange (-1)))
    checkZone name
    return Text.trimSpace (rest.drop name.length)

/-- The schedule that a text describes. -/
def parse (t : Text) : Reading Schedule := do
  if t.isEmpty then throw .empty
  let t ← withoutZone t
  if t.startsWith "@" then descriptor t else calendarOf t

end Schedule

end TwigLint
