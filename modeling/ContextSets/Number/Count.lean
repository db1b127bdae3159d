/-!
# Counts

How a count is written: digits, with or without a plus before them.
-/

namespace ContextSets

/-- A count of 64 bits. -/
def count? (text : String) : Option Nat := do
  let digits :=
    match text.toList with
    | '+' :: digits => digits
    | digits => digits
  let n ← if digits.all Char.isDigit then (String.ofList digits).toNat? else none
  if n < UInt64.size then some n else none

end ContextSets
