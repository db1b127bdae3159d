/-!
# Tables of code points

A character property of Unicode is written down as an ascending table of runs. A look-up finds by
bisection the one run that a code point can lie in.
-/

namespace ContextSets.Text

/-- The code points `first`, `first + step`, and so on up to `last`. -/
structure Run where
  first : Nat
  last : Nat
  step : Nat

/-- Whether a code point lies in the run. -/
def Run.has (run : Run) (point : Nat) : Bool :=
  run.first ≤ point && point ≤ run.last && (point - run.first) % run.step == 0

/-- How many members of an ascending table, counted between `low` and `high`, start at or before a
code point. -/
def startedBy {α : Type} (start : α → Nat) (table : Array α) (point low high : Nat) : Nat :=
  if low < high then
    let middle := (low + high) / 2
    match table[middle]? with
    | none => low
    | some member =>
      if start member ≤ point then startedBy start table point (middle + 1) high
      else startedBy start table point low middle
  else low
termination_by high - low

/-- The last member of an ascending table that starts at or before a code point. -/
def candidate {α : Type} (start : α → Nat) (table : Array α) (point : Nat) : Option α :=
  match startedBy start table point 0 table.size with
  | 0 => none
  | count + 1 => table[count]?

/-- Whether a character lies in one of the runs of an ascending table. -/
def inRuns (table : Array Run) (c : Char) : Bool :=
  (candidate Run.first table c.toNat).any (·.has c.toNat)

end ContextSets.Text
