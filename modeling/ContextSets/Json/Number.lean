/-!
# JSON numbers

What the text of a number stands for. A whole number of 64 bits is kept as it is. Any other number is
kept in double precision: its leading digits, as many as 64 bits hold, are rounded, and then scaled by
a power of ten, which rounds once more. Out of range is what becomes infinite on the way.
-/

namespace ContextSets.Json

/-- A number as it is kept. -/
inductive Number where
  | whole (negative : Bool) (size : UInt64)
  | double (value : Float)

namespace Number

/-- The number in double precision. -/
def toDouble : Number → Float
  | .whole negative size => if negative then -size.toFloat else size.toFloat
  | .double value => value

/-- The number in single precision. -/
def toSingle : Number → Float32
  | .whole negative size => if negative then -size.toFloat32 else size.toFloat32
  | .double value => value.toFloat32

/-- The number of the digits in front, behind those taken in before, as long as it has 64 bits, and the
digits left over. -/
def takeDigits (taken : Nat) : List Char → Nat × List Char
  | [] => (taken, [])
  | c :: rest =>
    let next := taken * 10 + (c.toNat - 48)
    if next < UInt64.size then takeDigits next rest else (taken, c :: rest)

/-- The greatest power of ten in double precision. -/
def greatestPower : Nat := 308

/-- A power of ten. -/
def ten (power : Nat) : Float :=
  Float.ofScientific 1 false power

/-- A size divided by a power of ten. Two divisions by the greatest power leave nothing of a number of
64 bits. -/
def scaleDown (size : Float) (power : Nat) : Float :=
  if power ≤ greatestPower then size / ten power
  else if power ≤ 2 * greatestPower then size / ten greatestPower / ten (power - greatestPower)
  else 0.0

/-- Digits times a power of ten, if that is in range. Zero is zero whatever the power. -/
def scale? (digits : Nat) (power : Int) : Option Float :=
  if digits = 0 then some 0.0
  else
    let size := (UInt64.ofNat digits).toFloat
    match power with
    | .negSucc less => some (scaleDown size (less + 1))
    | .ofNat power =>
      if power ≤ greatestPower then
        let value := size * ten power
        if value.isFinite then some value else none
      else none

/-- The parts of a number without its sign: digits before the point, digits behind it, and the
exponent. -/
def split (unsigned : List Char) : List Char × List Char × Option Int :=
  let isMark (c : Char) : Bool := c == 'e' || c == 'E'
  let mantissa := unsigned.takeWhile (!isMark ·)
  let number (digits : List Char) : Int := Int.ofNat ((String.ofList digits).toNat?.getD 0)
  let exponent :=
    match unsigned.dropWhile (!isMark ·) with
    | [] => none
    | _ :: '-' :: digits => some (-number digits)
    | _ :: '+' :: digits => some (number digits)
    | _ :: digits => some (number digits)
  (mantissa.takeWhile (· != '.'), (mantissa.dropWhile (· != '.')).drop 1, exponent)

/-- What the text of a number stands for, if that is in range. Minus zero is no whole number, and
neither is one below those of 64 bits with a sign. -/
def ofLiteral? (literal : String) : Option Number :=
  let (negative, unsigned) :=
    match literal.toList with
    | '-' :: rest => (true, rest)
    | cs => (false, cs)
  let signed (size : Float) : Number := .double (if negative then -size else size)
  let (before, behind, exponent) := split unsigned
  let (digits, skipped) := takeDigits 0 before
  if behind.isEmpty && exponent.isNone && skipped.isEmpty then
    if negative && (digits = 0 || UInt64.size / 2 < digits) then
      some (signed (UInt64.ofNat digits).toFloat)
    else some (.whole negative (UInt64.ofNat digits))
  else
    let (digits, unused) := takeDigits digits behind
    let power := Int.ofNat skipped.length - Int.ofNat (behind.length - unused.length)
    (scale? digits (power + exponent.getD 0)).map signed

end Number

end ContextSets.Json
