import ContextSets.Repository.Basic

/-!
# Workflows and entry points

Edits of the ordered workflow and of the entry points of a set.
-/

namespace ContextSets

/-- The direction in which a step is moved. -/
inductive Move where
  | up
  | down
deriving DecidableEq, Repr

/-- The position next to a position in a list of the given length, if there is one. -/
def Move.target? (move : Move) (index length : Nat) : Option Nat :=
  match move with
  | .up => if 0 < index then some (index - 1) else none
  | .down => if index + 1 < length then some (index + 1) else none

namespace Repository

/-- A file that a step mentions has to be registered. -/
def requireStepFile (step : WorkflowStep) : Edit Unit :=
  match step.file with
  | none => return ()
  | some id => requireFile id

/-- Appends a step and returns its position. -/
def addStep (name : String) (step : WorkflowStep) : Edit Nat := do
  requireStepFile step
  let set ← requireSet name
  store name { set with workflow := set.workflow ++ [step] }
  return set.workflow.length

/-- Replaces the step at a position. -/
def updateStep (name : String) (index : Nat) (step : WorkflowStep) : Edit Unit := do
  requireStepFile step
  let set ← requireSet name
  if index < set.workflow.length then
    store name { set with workflow := set.workflow.set index step }
  else
    throw (.indexOutOfRange set.name index)

/-- Removes the step at a position and returns it. -/
def removeStep (name : String) (index : Nat) : Edit WorkflowStep := do
  let set ← requireSet name
  match set.workflow[index]? with
  | none => throw (.indexOutOfRange set.name index)
  | some step =>
    store name { set with workflow := set.workflow.eraseIdx index }
    return step

/-- Exchanges the members of a list at two positions. -/
def exchange {α : Type} (xs : List α) (i j : Nat) : List α :=
  match xs[i]?, xs[j]? with
  | some x, some y => (xs.set i y).set j x
  | _, _ => xs

/-- Moves a step by one position and tells whether it moved: at the end it does not. -/
def moveStep (name : String) (index : Nat) (move : Move) : Edit Bool := do
  let set ← requireSet name
  if set.workflow.length ≤ index then
    throw (.indexOutOfRange set.name index)
  match move.target? index set.workflow.length with
  | none => return false
  | some target =>
    store name { set with workflow := exchange set.workflow index target }
    return true

/-- Declares an entry point. -/
def addEntryPoint (name : String) (entry : EntryPoint) : Edit Unit := do
  requireFile entry.file
  let set ← requireSet name
  store name { set with entryPoints := set.entryPoints ++ [entry] }

/-- Removes the entry point at a position and returns it. -/
def removeEntryPoint (name : String) (index : Nat) : Edit EntryPoint := do
  let set ← requireSet name
  match set.entryPoints[index]? with
  | none => throw (.indexOutOfRange set.name index)
  | some entry =>
    store name { set with entryPoints := set.entryPoints.eraseIdx index }
    return entry

end Repository

end ContextSets
