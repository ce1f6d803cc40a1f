import TwigLint.Config.Load
import TwigLint.Duration
import TwigLint.Number.Numeral
import TwigLint.Output.Csv

/-! # Flags of a command line

Flags have long names and some have letters.  They may stand between other arguments, up to an
argument of two dashes.  A letter may be followed by its value or by more letters.
-/

namespace TwigLint

/-- What the value of a flag is. -/
inductive FlagKind where
  | text
  /-- A truth value, which is true when the flag stands alone. -/
  | truth
  | number
  | duration
  /-- Texts with commas between them; the flag may be repeated. -/
  | texts
  deriving DecidableEq, Repr

structure Flag where
  name : Text
  letter : Option UInt8
  kind : FlagKind
  deriving DecidableEq, Repr

namespace FlagKind

/-- The value may be left out. -/
def isOptional (k : FlagKind) : Bool := k == truth

/-- An integer of 64 bits with an optional base mark, or why there is none. -/
def readNumber (t : Text) : Except Text Int :=
  (Numeral.readMarkedInt t).mapError fun fault =>
    "strconv.ParseInt: parsing " ++ t.quoted ++ ": " ++ fault.message

/-- The texts of a list. -/
def readTexts (t : Text) : Except Csv.ReadError (List Text) :=
  if t.isEmpty then .ok [] else Csv.firstRecord t

/-- Why a text is no value of this kind. -/
def complaint? (k : FlagKind) (t : Text) : Option Text :=
  match k with
  | text => none
  | truth =>
    if (Environment.truth? t).isSome then none
    else some ("strconv.ParseBool: parsing " ++ t.quoted ++ ": invalid syntax")
  | number =>
    match readNumber t with
    | .ok _ => none
    | .error reason => some reason
  | duration =>
    match Duration.parse t with
    | .ok _ => none
    | .error fault => some (fault.message t)
  | texts =>
    match readTexts t with
    | .ok _ => none
    | .error e => some e.message

end FlagKind

/-- The flag as messages show it. -/
def Flag.shown (f : Flag) : Text :=
  match f.letter with
  | some b => "-" ++ [b] ++ ", --" ++ f.name
  | none => "--" ++ f.name

/-- Why arguments cannot be read. -/
inductive FlagError where
  | unknown (name : Text)
  | unknownLetter (letter : UInt8) (letters : Text)
  | malformed (argument : Text)
  | missingValue (argument : Text)
  | missingLetterValue (letter : UInt8) (letters : Text)
  | invalid (value : Text) (flag : Flag) (reason : Text)

namespace FlagError

/-- A letter in single quotes. -/
def shownLetter (b : UInt8) : Text :=
  if b == '\'' then "'\\''"
  else if b == '"' then "'\"'"
  else
    let inner := (Text.encode b.toNat).quoted
    "'" ++ (inner.drop 1).take (inner.length - 2) ++ "'"

def message : FlagError → Text
  | unknown name => "unknown flag: --" ++ name
  | unknownLetter b letters =>
    "unknown shorthand flag: " ++ shownLetter b ++ " in -" ++ letters
  | malformed argument => "bad flag syntax: " ++ argument
  | missingValue argument => "flag needs an argument: " ++ argument
  | missingLetterValue b letters =>
    "flag needs an argument: " ++ shownLetter b ++ " in -" ++ letters
  | invalid value flag reason =>
    "invalid argument " ++ value.quoted ++ " for " ++ flag.shown.quoted ++ " flag: " ++ reason

end FlagError

/-- Flags with their values in order, and the other arguments. -/
structure Arguments where
  settings : List (Flag × Text)
  others : List Text

namespace Arguments

/-- A flag with a value, if it can have it. -/
def setting (f : Flag) (value : Text) : Except FlagError (Flag × Text) :=
  match f.kind.complaint? value with
  | none => .ok (f, value)
  | some reason => .error (.invalid value f reason)

/-- The flag of a long argument, and whether its value is the next argument. -/
def long (flags : List Flag) (argument : Text) (next? : Option Text) :
    Except FlagError ((Flag × Text) × Bool) := do
  let body := argument.drop 2
  if body.isEmpty || body.head? == some '-' || body.head? == some '=' then
    throw (.malformed argument)
  let name := body.takeWhile fun (b : UInt8) => b != '='
  let tail := body.drop name.length
  match flags.find? (·.name == name) with
  | none => throw (.unknown name)
  | some f =>
    if !tail.isEmpty then return (← setting f (tail.drop 1), false)
    else if f.kind.isOptional then return (← setting f "true", false)
    else
      match next? with
      | some value => return (← setting f value, true)
      | none => throw (.missingValue argument)

/-- The flags of letters, and whether the value of the last one is the next argument. -/
def letters (flags : List Flag) (next? : Option Text) :
    Text → Except FlagError (List (Flag × Text) × Bool)
  | [] => .ok ([], false)
  | b :: more => do
    if Text.startsWith (b :: more) "test." then return ([], false)
    match flags.find? (·.letter == some b) with
    | none => throw (.unknownLetter b (b :: more))
    | some f =>
      if 2 ≤ more.length && more.head? == some '=' then
        return ([← setting f (more.drop 1)], false)
      else if f.kind.isOptional then
        let s ← setting f "true"
        let (rest, usesNext) ← letters flags next? more
        return (s :: rest, usesNext)
      else if !more.isEmpty then return ([← setting f more], false)
      else
        match next? with
        | some value => return ([← setting f value], true)
        | none => throw (.missingLetterValue b (b :: more))

/-- The flags of one argument that starts with a dash. -/
def dashed (flags : List Flag) (argument : Text) (next? : Option Text) :
    Except FlagError (List (Flag × Text) × Bool) := do
  if argument.startsWith "--" then
    let (s, usesNext) ← long flags argument next?
    return ([s], usesNext)
  else letters flags next? (argument.drop 1)

/-- The argument is no flag. -/
def isOther (argument : Text) : Bool := argument.head? != some '-' || argument.length == 1

/-- Flags in front of what was read. -/
def add (settings : List (Flag × Text)) (a : Arguments) : Arguments :=
  { a with settings := settings ++ a.settings }

/-- Reads arguments. -/
def read (flags : List Flag) : List Text → Except FlagError Arguments
  | [] => .ok ⟨[], []⟩
  | argument :: rest => do
    if isOther argument then
      let a ← read flags rest
      return { a with others := argument :: a.others }
    else if argument == "--" then return ⟨[], rest⟩
    else
      let (settings, usesNext) ← dashed flags argument rest.head?
      match rest with
      | [] => return ⟨settings, []⟩
      | next :: later =>
        if usesNext then return add settings (← read flags later)
        else return add settings (← read flags (next :: later))

/-! ## Values -/

/-- The values given to a flag. -/
def values (a : Arguments) (name : Text) : List Text :=
  (a.settings.filter (·.1.name == name)).map Prod.snd

/-- The last value of a flag, empty when it is not given. -/
def text (a : Arguments) (name : Text) : Text := ((a.values name).getLast?).getD []

/-- The truth value of a flag. -/
def truth (a : Arguments) (name : Text) : Bool :=
  ((a.values name).getLast?.bind Environment.truth?).getD false

/-- The number of a flag, zero when it is not given. -/
def number (a : Arguments) (name : Text) : Int :=
  match FlagKind.readNumber (a.text name) with
  | .ok n => n
  | .error _ => 0

/-- The duration of a flag in nanoseconds, zero when it is not given. -/
def duration (a : Arguments) (name : Text) : Int := (Duration.read? (a.text name)).getD 0

/-- All texts of a flag that may be repeated. -/
def texts (a : Arguments) (name : Text) : List Text :=
  (a.values name).flatMap fun t => (FlagKind.readTexts t).toOption.getD []

end Arguments

end TwigLint
