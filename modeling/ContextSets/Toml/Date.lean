import ContextSets.Text.Instant

/-!
# TOML dates

Dates, times of day and distances from universal time, with all their digits; only seconds may be left
out altogether. A reading function takes what it reads off the front of the characters and returns the
rest.
-/

namespace ContextSets.Toml

/-- The number that a run of digits of the given length denotes, and what follows. -/
def takeNumber (width : Nat) (cs : List Char) : Option (Nat × List Char) :=
  let digits := cs.take width
  if digits.length = width ∧ digits.all Char.isDigit then
    (String.ofList digits).toNat?.map fun n => (n, cs.drop width)
  else none

/-- What follows a given character. -/
def takeChar (c : Char) : List Char → Option (List Char)
  | [] => none
  | d :: rest => if d = c then some rest else none

/-- Reads a date. -/
def takeDate (cs : List Char) : Option (List Char) := do
  let (year, rest) ← takeNumber 4 cs
  let (month, rest) ← takeNumber 2 (← takeChar '-' rest)
  let (day, rest) ← takeNumber 2 (← takeChar '-' rest)
  if 1 ≤ month ∧ month ≤ 12 ∧ 1 ≤ day ∧ day ≤ Text.daysIn year month then some rest else none

/-- Reads a fraction of a second, if there is one. -/
def takeFraction : List Char → Option (List Char)
  | '.' :: rest =>
    if rest.head?.any Char.isDigit then some (rest.dropWhile Char.isDigit) else none
  | rest => some rest

/-- Reads a second and a fraction of it, if there is one. A minute may have a leap second. -/
def takeSecond : List Char → Option (List Char)
  | ':' :: rest => do
    let (second, rest) ← takeNumber 2 rest
    if second ≤ 60 then takeFraction rest else none
  | rest => some rest

/-- Reads a time of day. -/
def takeTime (cs : List Char) : Option (List Char) := do
  let (hour, rest) ← takeNumber 2 cs
  let (minute, rest) ← takeNumber 2 (← takeChar ':' rest)
  if hour < 24 ∧ minute < 60 then takeSecond rest else none

/-- Whether a text is a distance from universal time: Z, or hours and minutes. -/
def isOffset : List Char → Bool
  | ['Z'] => true
  | ['z'] => true
  | sign :: rest =>
    (sign == '+' || sign == '-') &&
      (do
        let (hours, rest) ← takeNumber 2 rest
        let (minutes, rest) ← takeNumber 2 (← takeChar ':' rest)
        return hours < 24 && minutes < 60 && rest.isEmpty : Option Bool).getD false
  | [] => false

/-- Whether a text is a date, a time, or both with or without a distance from universal time. -/
def isDateTime (cs : List Char) : Bool :=
  match takeDate cs with
  | some [] => true
  | some (mark :: rest) =>
    (mark == 'T' || mark == 't' || mark == ' ') &&
      (takeTime rest).any fun rest => rest.isEmpty || isOffset rest
  | none => takeTime cs == some []

end ContextSets.Toml
