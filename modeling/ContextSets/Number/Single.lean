import ContextSets.Number.Decimal

/-!
# Text of single-precision numbers

A single-precision number is printed with the fewest digits that read back to it, or with fixed
places, rounded from its exact value. With fixed places a half goes to the even neighbour; among the
texts of fewest digits, the plain one takes the greater of two that are equally near.
-/

namespace ContextSets.Single

/-- A finite number by its bits: whether it is negative, and its size m · 2^q. -/
structure Parts where
  negative : Bool
  m : Nat
  q : Int

/-- The kinds of numbers. -/
inductive Shape where
  | nan
  | infinite (negative : Bool)
  | finite (parts : Parts)

/-- The value of the bit that holds the sign. -/
def signBit : Nat := 0x80000000

/-- The value of the lowest bit of the exponent. The sizes of most numbers have a leading bit of this
value in front of the fraction, which is not stored. -/
def leadingBit : Nat := 0x800000

/-- What the bits of a number stand for. -/
def shape (x : Float32) : Shape :=
  let bits := x.toBits.toNat
  let negative := signBit ≤ bits
  let exponent := bits % signBit / leadingBit
  let fraction := bits % leadingBit
  if exponent = 255 then
    if fraction = 0 then .infinite negative else .nan
  else if exponent = 0 then .finite ⟨negative, fraction, -149⟩
  else .finite ⟨negative, fraction + leadingBit, Int.ofNat exponent - 150⟩

/-- The numbers that are rounded to m · 2^q. Below a power of two the distance is half as large. The
ends belong to the interval if m is even. -/
def Parts.interval (p : Parts) : Decimal.Interval :=
  let below := if p.m = leadingBit ∧ p.q ≠ -149 then 1 else 2
  let scale := Nat.pow 2 (p.q - 2).toNat
  { low := (4 * p.m - below) * scale
    value := 4 * p.m * scale
    high := (4 * p.m + 2) * scale
    den := Nat.pow 2 (2 - p.q).toNat
    closed := p.m % 2 = 0 }

/-- The fewest digits that read back: digits · 10^power. -/
def Parts.digits (p : Parts) (tie : Decimal.Tie) : Nat × Int :=
  if p.m = 0 then (0, 0) else (Decimal.shortest p.interval tie 39 100).getD (0, 0)

/-- A minus before what is negative. -/
def signed (negative : Bool) (text : List Char) : String :=
  String.ofList (if negative then '-' :: text else text)

/-- The shortest text without an exponent; whole numbers have no point. -/
def plainText (x : Float32) : String :=
  match shape x with
  | .nan => "NaN"
  | .infinite negative => signed negative ['i', 'n', 'f']
  | .finite p =>
    let (digits, power) := p.digits .up
    signed p.negative (Decimal.positional digits power [])

/-- The shortest text as a JSON number: whole numbers end in ".0", and there is an exponent if the
number is below 10^-6 or has more than 13 places before the point. -/
def jsonText? (tie : Decimal.Tie) (x : Float32) : Option String :=
  match shape x with
  | .nan => none
  | .infinite _ => none
  | .finite p =>
    let (digits, power) := p.digits tie
    let point : Int := (Decimal.digitChars digits).length + power
    if -6 < point ∧ point ≤ 13 then
      some (signed p.negative (Decimal.positional digits power ['.', '0']))
    else some (signed p.negative (Decimal.scientific digits power))

/-- The text with a number of places behind the point, rounded from the exact value. -/
def fixedText (x : Float32) (places : Nat) : String :=
  match shape x with
  | .nan => "NaN"
  | .infinite negative => signed negative ['i', 'n', 'f']
  | .finite p =>
    signed p.negative
      (Decimal.fixed .toEven (p.m * Nat.pow 2 p.q.toNat) (Nat.pow 2 (-p.q).toNat) places)

end ContextSets.Single
