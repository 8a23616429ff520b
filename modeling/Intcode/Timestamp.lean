/-!
# Timestamps

A day of the Gregorian calendar, alone or with a time of the day. A time may tell
how far its clock is ahead of universal time; two such times are the same if they
name the same moment.

A timestamp is written as year, month and day with dashes between them. In front of
a time stands a `T` or blanks; month, day and hour may then have one digit. Seconds
may have a fraction, of which six digits count.

* `Timestamp.read?`: reads a timestamp; what is written like one may yet be out of
  range.
-/

namespace Intcode

/-- A day of the calendar. -/
structure Day where
  year : Nat
  month : Nat
  day : Nat
  deriving DecidableEq, Repr

/-- A time of the day. -/
structure Clock where
  hour : Nat
  minute : Nat
  second : Nat
  microsecond : Nat
  /-- Minutes ahead of universal time, if the clock tells. -/
  offset : Option Int
  deriving DecidableEq, Repr

/-- A day, with or without a time. -/
inductive Timestamp where
  | day (day : Day)
  | moment (day : Day) (clock : Clock)
  deriving DecidableEq, Repr

/-- Why a timestamp is out of range. -/
inductive TimestampError where
  | year (year : Nat)
  | month
  | day
  | hour
  | minute
  | second
  /-- A clock is less than a day off universal time. -/
  | offset (minutes : Int)
  deriving DecidableEq, Repr

namespace Day

/-- Has the year a day more? -/
def isLeap (year : Nat) : Bool := year % 4 = 0 && (year % 100 ≠ 0 || year % 400 = 0)

/-- The number of days of a month. -/
def monthLength (year month : Nat) : Nat :=
  if month = 2 then (if isLeap year then 29 else 28)
  else if [4, 6, 9, 11].contains month then 30
  else 31

/-- Checks year, month and day in order. -/
def check (d : Day) : Except TimestampError Unit :=
  if d.year = 0 then .error (.year d.year)
  else if d.month < 1 || 12 < d.month then .error .month
  else if d.day < 1 || monthLength d.year d.month < d.day then .error .day
  else .ok ()

/-- The number of days from the start of the calendar up to and with this one. -/
def ordinal (d : Day) : Nat :=
  let before := d.year - 1
  let months := (List.range (d.month - 1)).foldl (fun n m => n + monthLength d.year (m + 1)) 0
  before * 365 + before / 4 - before / 100 + before / 400 + months + d.day

end Day

namespace Clock

/-- Checks hour, minute and second in order. -/
def check (c : Clock) : Except TimestampError Unit :=
  if 23 < c.hour then .error .hour
  else if 59 < c.minute then .error .minute
  else if 59 < c.second then .error .second
  else .ok ()

/-- A clock may not be a day or more off universal time. -/
def checkOffset (c : Clock) : Except TimestampError Unit :=
  match c.offset with
  | some minutes => if minutes.natAbs < 24 * 60 then .ok () else .error (.offset minutes)
  | none => .ok ()

end Clock

/-! ## How a timestamp is shown -/

namespace Timestamp

/-- A number with zeros in front of it up to a width. -/
def padded (width n : Nat) : String :=
  let digits := Nat.toDigits 10 n
  String.ofList (List.replicate (width - digits.length) '0' ++ digits)

/-- A span of minutes, as days and seconds. -/
def spanText (minutes : Int) : String :=
  let seconds := minutes * 60
  let days := seconds / 86400
  let rest := seconds % 86400
  let parts := (if days ≠ 0 then [s!"days={days}"] else []) ++
    (if rest ≠ 0 then [s!"seconds={rest}"] else [])
  "datetime.timedelta(" ++ (if parts.isEmpty then "0" else ", ".intercalate parts) ++ ")"

/-- How a clock tells what it is ahead of universal time. -/
def offsetText (minutes : Int) : String :=
  let size := minutes.natAbs
  (if minutes < 0 then "-" else "+") ++ padded 2 (size / 60) ++ ":" ++ padded 2 (size % 60)

/-- The zone of a clock inside of another value. -/
def zoneText (minutes : Int) : String :=
  if minutes = 0 then "datetime.timezone.utc" else "datetime.timezone(" ++ spanText minutes ++ ")"

/-- The text of a day. -/
def dayText (d : Day) : String := padded 4 d.year ++ "-" ++ padded 2 d.month ++ "-" ++ padded 2 d.day

/-- The text of a timestamp on its own. -/
def text : Timestamp → String
  | day d => dayText d
  | moment d c =>
    dayText d ++ " " ++ padded 2 c.hour ++ ":" ++ padded 2 c.minute ++ ":" ++ padded 2 c.second ++
      (if c.microsecond = 0 then "" else "." ++ padded 6 c.microsecond) ++
      (c.offset.map offsetText).getD ""

/-- The text of a timestamp inside of another value. Seconds that are zero are left out. -/
def innerText : Timestamp → String
  | day d => s!"datetime.date({d.year}, {d.month}, {d.day})"
  | moment d c =>
    s!"datetime.datetime({d.year}, {d.month}, {d.day}, {c.hour}, {c.minute}" ++
      (if c.microsecond ≠ 0 then s!", {c.second}, {c.microsecond}"
        else if c.second ≠ 0 then s!", {c.second}"
        else "") ++
      (c.offset.map fun z => ", tzinfo=" ++ zoneText z).getD "" ++ ")"

/-- The name of the kind of a timestamp. -/
def kindName : Timestamp → String
  | day _ => "datetime.date"
  | moment .. => "datetime.datetime"

end Timestamp

/-- The text of an error. -/
def TimestampError.message : TimestampError → String
  | year y => s!"year {y} is out of range"
  | month => "month must be in 1..12"
  | day => "day is out of range for month"
  | hour => "hour must be in 0..23"
  | minute => "minute must be in 0..59"
  | second => "second must be in 0..59"
  | offset minutes =>
    "offset must be a timedelta strictly between -timedelta(hours=24) and timedelta(hours=24), not " ++
      Timestamp.spanText minutes ++ "."

namespace Timestamp

/-- Microseconds from the start of the calendar, on the clock itself. -/
def microseconds (d : Day) (c : Clock) : Int :=
  (((d.ordinal * 24 + c.hour) * 60 + c.minute) * 60 + c.second) * 1000000 + c.microsecond

/-- Do two timestamps name the same day or moment? Only clocks that both tell their offset, or both
do not, can be compared. -/
def same : Timestamp → Timestamp → Bool
  | day a, day b => a = b
  | moment d c, moment e k =>
    match c.offset, k.offset with
    | none, none => microseconds d c = microseconds e k
    | some y, some z => microseconds d c - y * 60000000 = microseconds e k - z * 60000000
    | _, _ => false
  | _, _ => false

/-! ## Reading -/

/-- What a reader makes of a text: a result and the text left. -/
abbrev Reader (α : Type) := List Char → Option (α × List Char)

/-- Reads as many digits as `most`, at least `least`. -/
def digits (least most : Nat) : Reader Nat := fun s =>
  let ds := (s.take most).takeWhile Char.isDigit
  if ds.length < least then none else some (Nat.ofDigitChars 10 ds 0, s.drop ds.length)

/-- Reads a given character. -/
def symbol (c : Char) : Reader Unit
  | d :: s => if d = c then some ((), s) else none
  | [] => none

/-- Reads a day whose month and day have at least `least` digits. -/
def readDay (least : Nat) : Reader Day := fun s => do
  let (year, s) ← digits 4 4 s
  let (_, s) ← symbol '-' s
  let (month, s) ← digits least 2 s
  let (_, s) ← symbol '-' s
  let (number, s) ← digits least 2 s
  return (⟨year, month, number⟩, s)

/-- Reads what stands between a day and a time: a `T`, or blanks. -/
def readGap : Reader Unit
  | 'T' :: s | 't' :: s => some ((), s)
  | s =>
    let rest := s.dropWhile fun c => c = ' ' || c = '\t'
    if rest.length < s.length then some ((), rest) else none

/-- Reads a fraction of a second in microseconds: the point and any number of digits, or nothing. -/
def readFraction : Reader Nat
  | '.' :: s =>
    let ds := s.takeWhile Char.isDigit
    let six := ds.take 6
    some (Nat.ofDigitChars 10 (six ++ List.replicate (6 - six.length) '0') 0, s.drop ds.length)
  | s => some (0, s)

/-- Reads the minutes behind the hours of an offset, if there are any. -/
def readOffsetMinutes : Reader Nat
  | ':' :: s => digits 2 2 s
  | s => some (0, s)

/-- Reads an offset to the end of the text: blanks and then a `Z`, or a sign, hours and minutes. -/
def readOffset (s : List Char) : Option (Option Int) :=
  if s.isEmpty then some none
  else
    match s.dropWhile fun c => c = ' ' || c = '\t' with
    | ['Z'] => some (some 0)
    | sign :: s => do
      if sign ≠ '+' && sign ≠ '-' then none
      else
        let (hours, s) ← digits 1 2 s
        let (minutes, s) ← readOffsetMinutes s
        let size : Int := hours * 60 + minutes
        if s.isEmpty then some (some (if sign = '-' then -size else size)) else none
    | [] => none

/-- Reads a time to the end of the text. -/
def readClock (s : List Char) : Option Clock := do
  let (hour, s) ← digits 1 2 s
  let (_, s) ← symbol ':' s
  let (minute, s) ← digits 2 2 s
  let (_, s) ← symbol ':' s
  let (second, s) ← digits 2 2 s
  let (microsecond, s) ← readFraction s
  let offset ← readOffset s
  return { hour, minute, second, microsecond, offset }

/-- Reads a timestamp without a look at its range. -/
def readLoose? (s : List Char) : Option Timestamp :=
  match readDay 2 s with
  | some (d, []) => some (.day d)
  | _ => do
    let (d, s) ← readDay 1 s
    let (_, s) ← readGap s
    let c ← readClock s
    return .moment d c

/-- Checks that a timestamp is in range: its offset, its day, its time. -/
def check : Timestamp → Except TimestampError Unit
  | day d => d.check
  | moment d c => do
    c.checkOffset
    d.check
    c.check

/-- Reads a timestamp, if the text is written like one. -/
def read? (s : List Char) : Option (Except TimestampError Timestamp) :=
  (readLoose? s).map fun t => t.check.map fun _ => t

end Timestamp

end Intcode
