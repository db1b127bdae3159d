/-!
# Decimal text of binary fractions

A binary fraction is m · 2^q. `shortest` finds the decimal with the fewest digits in an interval around
it, and `fixed` writes it with a fixed number of places. Which way a half goes is told to both.
-/

namespace ContextSets.Decimal

/-- Which of two equally near neighbours is taken. -/
inductive Tie where
  | toEven
  | up
deriving DecidableEq, Repr

/-- The quotient of two natural numbers, rounded to the nearest. -/
def roundDiv (tie : Tie) (num den : Nat) : Nat :=
  let low := num / den
  let rest := 2 * (num % den)
  if rest < den then low
  else if den < rest then low + 1
  else
    match tie with
    | .toEven => if low % 2 = 0 then low else low + 1
    | .up => low + 1

/-- An interval of fractions over one denominator, around a value in it. -/
structure Interval where
  low : Nat
  value : Nat
  high : Nat
  den : Nat
  closed : Bool

/-- Whether a fraction over the same denominator lies in the interval. -/
def Interval.has (interval : Interval) (num : Nat) : Bool :=
  if interval.closed then interval.low ≤ num && num ≤ interval.high
  else interval.low < num && num < interval.high

/-- The interval on a scale whose unit is a power of ten. -/
def Interval.scaled (interval : Interval) (power : Int) : Interval :=
  match power with
  | .ofNat k => { interval with den := interval.den * Nat.pow 10 k }
  | .negSucc k =>
    let factor := Nat.pow 10 (k + 1)
    { interval with
      low := interval.low * factor, value := interval.value * factor,
      high := interval.high * factor }

/-- The whole number next to the value that lies in the interval, the nearer one if both do. -/
def Interval.neighbour? (interval : Interval) (tie : Tie) : Option Nat :=
  let floor := interval.value / interval.den
  let inside (n : Nat) : Bool := 0 < n && interval.has (n * interval.den)
  match inside floor, inside (floor + 1) with
  | true, true => some (roundDiv tie interval.value interval.den)
  | true, false => some floor
  | false, true => some (floor + 1)
  | false, false => none

/-- The decimal digits · 10^power of fewest digits in an interval. The grids of powers of ten are
tried from the coarsest on, `count` of them. -/
def shortest (interval : Interval) (tie : Tie) (power : Int) : Nat → Option (Nat × Int)
  | 0 => none
  | count + 1 =>
    match (interval.scaled power).neighbour? tie with
    | some digits => some (digits, power)
    | none => shortest interval tie (power - 1) count

/-- The digits of a number. -/
def digitChars (n : Nat) : List Char :=
  Nat.toDigits 10 n

/-- digits · 10^power with all places written out and no exponent. Whole numbers get `tail` behind
them. -/
def positional (digits : Nat) (power : Int) (tail : List Char) : List Char :=
  let ds := digitChars digits
  let point : Int := ds.length + power
  if 0 ≤ power then ds ++ List.replicate power.toNat '0' ++ tail
  else if 0 < point then ds.take point.toNat ++ ['.'] ++ ds.drop point.toNat
  else ['0', '.'] ++ List.replicate (-point).toNat '0' ++ ds

/-- digits · 10^power with one digit before the point, and an exponent. -/
def scientific (digits : Nat) (power : Int) : List Char :=
  let ds := digitChars digits
  let exponent : Int := ds.length + power - 1
  let fraction := if ds.length = 1 then [] else '.' :: ds.drop 1
  ds.take 1 ++ fraction ++ ['e'] ++ (toString exponent).toList

/-- Whether a number is negative, its digits and its power of ten, read from a text such as -12.5e3. -/
def ofText? (text : List Char) : Option (Bool × Nat × Int) := do
  let (negative, unsigned) :=
    match text with
    | '-' :: rest => (true, rest)
    | cs => (false, cs)
  let isMark (c : Char) : Bool := c == 'e' || c == 'E'
  let mantissa := unsigned.takeWhile (!isMark ·)
  let power := (unsigned.dropWhile (!isMark ·)).drop 1
  let whole := mantissa.takeWhile (· != '.')
  let fraction := (mantissa.dropWhile (· != '.')).drop 1
  let digits ← (String.ofList (whole ++ fraction)).toNat?
  let exponent ←
    match power with
    | [] => some 0
    | '-' :: ds => (String.ofList ds).toNat?.map (fun n => -(Int.ofNat n))
    | '+' :: ds => (String.ofList ds).toNat?.map Int.ofNat
    | ds => (String.ofList ds).toNat?.map Int.ofNat
  return (negative, digits, exponent - fraction.length)

/-- The double-precision number nearest to digits · 10^power. Sizes far outside the range are not
computed. -/
def toDouble (negative : Bool) (digits : Nat) (power : Int) : Float :=
  let size : Int := (digitChars digits).length + power
  let value : Float :=
    if digits = 0 ∨ size < -400 then 0.0
    else if 400 < size then 1.0 / 0.0
    else
      match power with
      | .ofNat e => Float.ofScientific digits false e
      | .negSucc e => Float.ofScientific digits true (e + 1)
  if negative then -value else value

/-- A fraction with a number of places behind the point. -/
def fixed (tie : Tie) (num den places : Nat) : List Char :=
  let unit := Nat.pow 10 places
  let scaled := roundDiv tie (num * unit) den
  let ds := digitChars (scaled % unit)
  digitChars (scaled / unit) ++ ['.'] ++ List.replicate (places - ds.length) '0' ++ ds

end ContextSets.Decimal
