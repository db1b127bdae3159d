import ContextSets.Repository.Basic

/-!
# The graph of uses

A set may use other sets, but never itself, also not by way of others. Before an edge is added, a
depth-first search looks for a way back.
-/

namespace ContextSets.Repository

/-- The names that a set uses; none if there is no such set. -/
def usesOf (repo : Repository) (key : String) : List String :=
  match repo.sets.get? key with
  | some set => set.uses
  | none => []

/-- Visits names in turn until one leads to the target. The names done so far are handed from one
visit to the next. -/
def firstLeading (visit : String → List String → Option (List String) × List String) :
    List String → List String → Option (List String) × List String
  | [], done => (none, done)
  | name :: rest, done =>
    match visit name done with
    | (some found, done) => (some found, done)
    | (none, done) => firstLeading visit rest done

/-- Searches depth first for a path from a name to the target. It returns the path and the names that
are done: those met before, from which no path leads on. A name that is on the way already ends the
search as well. The first argument bounds the length of the way. -/
def search (next : String → List String) (target : String) :
    Nat → List String → String → List String → Option (List String) × List String
  | 0, _, _, done => (none, done)
  | depth + 1, way, current, done =>
    if current = target || way.contains current then (some [current], done)
    else if done.contains current then (none, done)
    else
      let (found, done) :=
        firstLeading (search next target depth (current :: way)) (next current) (current :: done)
      (found.map (current :: ·), done)

/-- A path of uses from one name to another, if there is one. No path without repetition is longer
than the number of sets. -/
def pathBetween (repo : Repository) (start target : String) : Option (List String) :=
  (search repo.usesOf target (repo.sets.size + 1) [] start []).1

/-- The cycle that arises if one set uses another, from the first set back to itself. -/
def cycleIfUsed (repo : Repository) (source target : String) : Option (List String) :=
  let source := SetName.bare source
  let target := SetName.bare target
  if source = target then some [source, target]
  else (repo.pathBetween target source).map (source :: ·)

/-- Makes a set use another. A use that exists already stays as it is. -/
def addUse (source target : String) : Edit Unit := do
  let sourceKey := SetName.bare source
  let targetKey := SetName.bare target
  let _ ← requireSet source
  let _ ← requireSet target
  if sourceKey = targetKey then
    throw (.selfReference sourceKey)
  if let some cycle := (← get).cycleIfUsed sourceKey targetKey then
    throw (.circularDependency sourceKey targetKey cycle)
  let set ← requireSet source
  if !set.uses.contains targetKey then
    store source { set with uses := set.uses ++ [targetKey] }

/-- Takes a use away and tells whether it existed. -/
def removeUse (source target : String) : Edit Bool := do
  let targetKey := SetName.bare target
  let set ← requireSet source
  let uses := set.uses.filter (· != targetKey)
  store source { set with uses := uses }
  return uses.length != set.uses.length

/-- Walks a graph depth first, with the names still to visit on a stack. Names seen are kept newest
first. The first argument bounds the number of names taken off the stack. -/
def walk (next : String → List String) : Nat → List String → List String → List String
  | 0, _, seen => seen.reverse
  | _ + 1, [], seen => seen.reverse
  | steps + 1, name :: stack, seen =>
    if seen.contains name then walk next steps stack seen
    else walk next steps (next name ++ stack) (name :: seen)

/-- How many uses all sets have together. -/
def useCount (repo : Repository) : Nat :=
  (repo.sets.values.flatMap (·.uses)).length

/-- The names of a set and of all it uses, directly or through others, each once, in the order of a
depth-first walk. Every use is put on the stack at most once, when its set is first visited. -/
def transitiveUses (repo : Repository) (name : String) : Except SetError (List String) := do
  let root ← repo.find name
  return walk repo.usesOf (repo.useCount + 1) [root.name] []

/-- The names of the sets that use a set directly, ascending. -/
def usedBy (repo : Repository) (name : String) : List String :=
  let key := SetName.bare name
  (repo.sets.values.filter (·.uses.contains key)).map (·.name)

end ContextSets.Repository
