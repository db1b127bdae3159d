import ContextSets.Number.Single

/-!
# The order of single-precision numbers

Numbers are put in a total order: as their size says, both zeros alike, and behind all of them what is
not a number.
-/

namespace ContextSets.Single

/-- The place of a number in the order, read off its bits: numbers of one sign are ordered like their
bits. -/
def place (x : Float32) : Int :=
  let bits := x.toBits.toNat
  if x.isNaN then signBit
  else if bits < signBit then bits
  else (signBit : Int) - bits

/-- Whether a number comes before another or at the same place. -/
def atMost (x y : Float32) : Bool :=
  place x ≤ place y

end ContextSets.Single
