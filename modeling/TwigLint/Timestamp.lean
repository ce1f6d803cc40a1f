import TwigLint.Text.Basic

/-! # Dates and times

Dates as YAML writes them: `2001-2-3`, or with a time of day behind a blank or the letter T.
-/

namespace TwigLint

/-- A date and time of day on some clock. -/
structure Timestamp where
  year : Nat
  month : Nat
  day : Nat
  hour : Nat
  minute : Nat
  second : Nat
  nanosecond : Nat
  /-- How many seconds the clock is ahead of universal time; none if it shows universal time. -/
  ahead? : Option Int
  deriving DecidableEq, Repr

namespace Timestamp

/-- How many seconds the clock is ahead of universal time. -/
def offset (t : Timestamp) : Int := t.ahead?.getD 0

def isLeap (year : Nat) : Bool := year % 4 = 0 && (year % 100 != 0 || year % 400 = 0)

/-- Number of days of a month. -/
def daysIn (year month : Nat) : Nat :=
  if month = 2 then (if isLeap year then 29 else 28)
  else if [4, 6, 9, 11].contains month then 30 else 31

/-- The date exists. -/
def isDate (year month day : Nat) : Bool :=
  1 ≤ month && month ≤ 12 && 1 ≤ day && day ≤ daysIn year month

/-- One or two digits. -/
def shortNumber? (t : Text) : Option (Nat × Text) :=
  let digits := (t.take 2).takeWhile Text.isDigit
  (Text.toNat? digits).map fun n => (n, t.drop digits.length)

/-- The text after one given byte. -/
def after? (b : UInt8) (t : Text) : Option Text := Text.after? [b] t

/-- A fraction of a second in nanoseconds; further digits are dropped. -/
def fraction (t : Text) : Nat × Text :=
  match t with
  | p :: rest =>
    let digits := rest.takeWhile Text.isDigit
    if (p == '.' || p == ',') && !digits.isEmpty then
      let nine := (digits ++ List.replicate 9 ('0' : UInt8)).take 9
      (Text.digitsValue 0 nine, rest.drop digits.length)
    else (0, t)
  | [] => (0, t)

/-- The offset `+hh:mm` at the end of a text, or `Z` for universal time. -/
def zone? (t : Text) : Option (Option Int) :=
  if t == "Z" then some none
  else
    match t with
    | [sign, h, h', colon, m, m'] => do
      let hours ← Text.toNat? [h, h']
      let minutes ← Text.toNat? [m, m']
      let seconds : Int := (hours * 60 + minutes) * 60
      if colon != ':' || 24 < hours || 60 < minutes then none
      else if sign == '+' then some (some seconds)
      else if sign == '-' then some (some (-seconds))
      else none
    | _ => none

/-- A date at the start of a text. -/
def date? (t : Text) : Option (Timestamp × Text) := do
  let year ← Text.toNat? (t.take 4)
  if (t.take 4).length != 4 then none
  let (month, t) ← shortNumber? (← after? '-' (t.drop 4))
  let (day, t) ← shortNumber? (← after? '-' t)
  if isDate year month day then some (⟨year, month, day, 0, 0, 0, 0, none⟩, t) else none

/-- A time of day at the start of a text, put onto a date. -/
def time? (d : Timestamp) (t : Text) : Option (Timestamp × Text) := do
  let (hour, t) ← shortNumber? t
  let (minute, t) ← shortNumber? (← after? ':' t)
  let (second, t) ← shortNumber? (← after? ':' t)
  let (nanosecond, t) := fraction t
  if hour < 24 && minute < 60 && second < 60 then
    some ({ d with hour, minute, second, nanosecond }, t)
  else none

/-- A date, alone, with a time of day, or with a time of day and an offset. -/
def read? (t : Text) : Option Timestamp := do
  let (d, rest) ← date? t
  match rest with
  | [] => some d
  | b :: clock =>
    if b == 'T' || b == 't' then
      let (d, zone) ← time? d clock
      return { d with ahead? := ← zone? zone }
    else if b == ' ' then
      let (d, tail) ← time? d (clock.dropWhile (· == ' '))
      if tail.isEmpty then some d else none
    else none

/-- A number with leading zeros. -/
def padded (width n : Nat) : Text :=
  let digits := Text.ofNat n
  List.replicate (width - digits.length) ('0' : UInt8) ++ digits

/-- A fraction of a second without the zeros at its end. -/
def fractionText (nanosecond : Nat) : Text :=
  if nanosecond = 0 then [] else '.' :: Text.trimRight (· == '0') (padded 9 nanosecond)

/-- An offset as `+hhmm`. -/
def offsetText (offset : Int) : Text :=
  let minutes := offset.natAbs / 60
  let digits : Text := padded 2 (minutes / 60) ++ padded 2 (minutes % 60)
  (if offset < 0 then '-' else '+') :: digits

/-- The text of a timestamp: date, time, offset and the name of the zone, which is again the offset
unless that is zero. -/
def render (t : Timestamp) : Text :=
  let date : Text := padded 4 t.year ++ "-" ++ padded 2 t.month ++ "-" ++ padded 2 t.day
  let clock : Text := padded 2 t.hour ++ ":" ++ padded 2 t.minute ++ ":" ++ padded 2 t.second ++
    fractionText t.nanosecond
  let zone : Text := if t.offset = 0 then "UTC" else offsetText t.offset
  date ++ " " ++ clock ++ " " ++ offsetText t.offset ++ " " ++ zone

/-- The Internet form of a timestamp: the letter T between date and time, and the offset as `Z` or
`+hh:mm`. -/
def internet (t : Timestamp) : Text :=
  let date : Text := padded 4 t.year ++ "-" ++ padded 2 t.month ++ "-" ++ padded 2 t.day
  let clock : Text := padded 2 t.hour ++ ":" ++ padded 2 t.minute ++ ":" ++ padded 2 t.second ++
    fractionText t.nanosecond
  let digits := offsetText t.offset
  let zone : Text := if t.offset = 0 then "Z" else digits.take 3 ++ ":" ++ digits.drop 3
  date ++ "T" ++ clock ++ zone

/-- The first moment of the calendar, which stands for no moment at all. -/
def zero : Timestamp := ⟨1, 1, 1, 0, 0, 0, 0, none⟩

/-! ## Seconds since the start of 1970 -/

/-- Days from the first day of year zero to a date. -/
def dayNumber (year month day : Nat) : Nat :=
  let leapDays := (year + 3) / 4 - (year + 99) / 100 + (year + 399) / 400
  let months := (List.range (month - 1)).foldl (fun n m => n + daysIn year (m + 1)) 0
  365 * year + leapDays + months + day - 1

/-- Days from the first day of year zero to the start of 1970. -/
def epochDay : Nat := dayNumber 1970 1 1

/-- Seconds since the start of 1970. -/
def epochSeconds (t : Timestamp) : Int :=
  ((dayNumber t.year t.month t.day : Int) - epochDay) * 86400 + t.hour * 3600 + t.minute * 60 +
    t.second - t.offset

/-- The month and day of a day of a year, both from zero on; `months` are the months left. -/
def monthDay (year : Nat) : (months : List Nat) → Nat → Nat × Nat
  | [], n => (12, n + 1)
  | m :: rest, n => if n < daysIn year m then (m, n + 1) else monthDay year rest (n - daysIn year m)

/-- The year of a day number, and the day within it; `n` bounds the number of years to try. -/
def yearDay : (n year day : Nat) → Nat × Nat
  | 0, year, day => (year, day)
  | n + 1, year, day =>
    let length := if isLeap year then 366 else 365
    if day < length then (year, day) else yearDay n (year + 1) (day - length)

/-- The time a number of seconds after the start of 1970. -/
def ofEpochSeconds (n : Nat) : Timestamp :=
  let days := n / 86400
  let (year, day) := yearDay (days / 365 + 1) 1970 days
  let (month, day) := monthDay year (List.range' 1 12) day
  ⟨year, month, day, n % 86400 / 3600, n % 3600 / 60, n % 60, 0, none⟩

end Timestamp

end TwigLint
