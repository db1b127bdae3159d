import ContextSets.Text.Blank

/-!
# Instants

The text form of an instant: a date, a time of day and a distance from universal time, such as
2024-01-31T08:05:00.25Z or 2024-1-31 8:05:00 +01:00. Written instants have one spelling; what is read
may leave out leading zeros and may have blanks between its parts.
-/

namespace ContextSets.Text

/-- How many days a month has. -/
def daysIn (year : Int) (month : Nat) : Nat :=
  if month = 2 then
    if year % 4 = 0 ∧ (year % 100 ≠ 0 ∨ year % 400 = 0) then 29 else 28
  else if month = 4 ∨ month = 6 ∨ month = 9 ∨ month = 11 then 30
  else 31

/-- The number in front of a text, of one digit at least and of a number of digits at most, and what
follows. -/
def leadingNumber (width : Nat) (cs : List Char) : Option (Nat × List Char) :=
  let digits := (cs.take width).takeWhile Char.isDigit
  (String.ofList digits).toNat?.map fun n => (n, cs.drop digits.length)

/-- What follows a given character, before which there may be blanks. -/
def behindMark? (mark : Char) (cs : List Char) : Option (List Char) :=
  match trimLeft cs with
  | [] => none
  | c :: rest => if c = mark then some rest else none

/-- The number of two digits or one behind a given character. Before both there may be blanks. -/
def numberBehind? (mark : Char) (cs : List Char) : Option (Nat × List Char) := do
  leadingNumber 2 (trimLeft (← behindMark? mark cs))

/-- A year of up to four digits, or of any number of them behind a sign. -/
def leadingYear (cs : List Char) : Option (Int × List Char) :=
  match trimLeft cs with
  | '-' :: rest => (leadingNumber rest.length rest).map fun (n, rest) => (-Int.ofNat n, rest)
  | '+' :: rest => (leadingNumber rest.length rest).map fun (n, rest) => (Int.ofNat n, rest)
  | cs => (leadingNumber 4 cs).map fun (n, rest) => (Int.ofNat n, rest)

/-- A day of the calendar. -/
structure Date where
  year : Int
  month : Nat
  day : Nat
deriving DecidableEq, Repr

/-- The first day on which an instant can lie. -/
def Date.first : Date := ⟨-262143, 1, 1⟩

/-- The last day on which an instant can lie. -/
def Date.last : Date := ⟨262142, 12, 31⟩

/-- A date and what follows it. -/
def leadingDate (cs : List Char) : Option (Date × List Char) := do
  let (year, rest) ← leadingYear cs
  let (month, rest) ← numberBehind? '-' rest
  let (day, rest) ← numberBehind? '-' rest
  if Date.first.year ≤ year && year ≤ Date.last.year && 1 ≤ month && month ≤ 12 && 1 ≤ day &&
      day ≤ daysIn year month then
    some (⟨year, month, day⟩, rest)
  else none

/-- What follows a fraction of a second, if there is one. -/
def behindFraction? : List Char → Option (List Char)
  | '.' :: rest =>
    if rest.head?.any Char.isDigit then some (rest.dropWhile Char.isDigit) else none
  | rest => some rest

/-- The minutes since midnight at a time of day, and what follows it. A minute may have a leap
second. -/
def leadingTime (cs : List Char) : Option (Nat × List Char) := do
  let (hour, rest) ← leadingNumber 2 (trimLeft cs)
  let (minute, rest) ← numberBehind? ':' rest
  let (second, rest) ← numberBehind? ':' rest
  let rest ← behindFraction? rest
  if hour < 24 && minute < 60 && second ≤ 60 then some (60 * hour + minute, rest) else none

/-- The number of two digits in front, if it lies below a bound, and what follows. -/
def leadingPair (bound : Nat) (cs : List Char) : Option (Nat × List Char) := do
  let (n, rest) ← leadingNumber 2 cs
  if rest.length + 2 = cs.length && n < bound then some (n, rest) else none

/-- How many minutes a time is ahead of universal time, and what follows: Z or UTC, or hours and
minutes behind a sign. -/
def leadingOffset (cs : List Char) : Option (Int × List Char) :=
  if (cs.take 3).map Char.toUpper = ['U', 'T', 'C'] then some (0, cs.drop 3)
  else
    match cs with
    | 'Z' :: rest => some (0, rest)
    | 'z' :: rest => some (0, rest)
    | sign :: rest => do
      if sign != '+' && sign != '-' && sign != '\u2212' then none
      let (hours, rest) ← leadingPair 24 rest
      let (minutes, rest) ← leadingPair 60 (rest.dropWhile fun c => c == ':' || isBlank c)
      let ahead := Int.ofNat (60 * hours + minutes)
      return (if sign == '+' then ahead else -ahead, rest)
    | [] => none

/-- Whether a time on a date, so many minutes ahead of universal time, lies between the first and the last
day in universal time too. -/
def isWithinDays (date : Date) (minutes : Nat) (ahead : Int) : Bool :=
  let universal := Int.ofNat minutes - ahead
  if universal < 0 then date ≠ Date.first
  else if 24 * 60 ≤ universal then date ≠ Date.last
  else true

/-- Whether a text denotes an instant. -/
def isInstant (text : String) : Bool :=
  (do
    match ← leadingDate text.toList with
    | (_, []) => none
    | (date, mark :: rest) =>
      if mark != 'T' && mark != 't' && mark != ' ' then none
      let (minutes, rest) ← leadingTime rest
      let (ahead, rest) ← leadingOffset (trimLeft rest)
      return rest.all isBlank && isWithinDays date minutes ahead : Option Bool).getD false

/-- Year, month and day, given the number of days since 1970-01-01. Years are counted from March, so
that a leap day comes last. -/
def dateOfDays (days : Nat) : Nat × Nat × Nat :=
  let shifted := days + 719468
  let era := shifted / 146097
  let dayOfEra := shifted % 146097
  let yearOfEra := (dayOfEra - dayOfEra / 1460 + dayOfEra / 36524 - dayOfEra / 146096) / 365
  let dayOfYear := dayOfEra - (365 * yearOfEra + yearOfEra / 4 - yearOfEra / 100)
  let month := (5 * dayOfYear + 2) / 153
  let day := dayOfYear - (153 * month + 2) / 5 + 1
  let year := yearOfEra + 400 * era
  if month < 10 then (year, month + 3, day) else (year + 1, month - 9, day)

/-- A number with zeros before it, at least as wide as asked for. -/
def zeroPadded (width n : Nat) : String :=
  let digits := Nat.toDigits 10 n
  String.ofList (List.replicate (width - digits.length) '0' ++ digits)

/-- The text of the instant so many seconds and nanoseconds after 1970 began. -/
def instantText (seconds nanoseconds : Nat) : String :=
  let (year, month, day) := dateOfDays (seconds / 86400)
  let time := seconds % 86400
  zeroPadded 4 year ++ "-" ++ zeroPadded 2 month ++ "-" ++ zeroPadded 2 day ++ "T" ++
    zeroPadded 2 (time / 3600) ++ ":" ++ zeroPadded 2 (time / 60 % 60) ++ ":" ++
    zeroPadded 2 (time % 60) ++ "." ++ zeroPadded 9 nanoseconds ++ "Z"

end ContextSets.Text
