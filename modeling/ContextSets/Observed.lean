/-!
# Observed values

A value with a revision that counts its successful updates. Whoever watches it compares revisions. A
revision is meant to have 64 bits: it is a number here, which is the same for fewer than 2^64 updates.
-/

namespace ContextSets

/-- A value and the number of updates that succeeded. -/
structure Observed (α : Type) where
  value : α
  revision : Nat
deriving Repr

namespace Observed

variable {α β ε : Type}

/-- A value that has not been updated. -/
def fresh (value : α) : Observed α := ⟨value, 0⟩

/-- Runs an update. The revision grows if it succeeds. -/
def update (edit : EStateM ε α β) (observed : Observed α) : Except ε β × Observed α :=
  match edit.run observed.value with
  | .ok result value => (.ok result, ⟨value, observed.revision + 1⟩)
  | .error error value => (.error error, ⟨value, observed.revision⟩)

end Observed

end ContextSets
