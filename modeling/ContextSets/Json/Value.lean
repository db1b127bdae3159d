/-!
# JSON values

A JSON value as it is written: numbers keep their text, and the members of an object keep their order
and repetitions.
-/

namespace ContextSets

/-- A JSON value. A string is `none` if its escapes name half of a surrogate pair, so that it stands
for no text. -/
inductive Json where
  | null
  | bool (value : Bool)
  | number (literal : String)
  | string (text : Option String)
  | array (items : List Json)
  | object (members : List (Option String × Json))
deriving Repr, Inhabited

namespace Json

/-- A string. -/
def text (s : String) : Json := .string (some s)

/-- A natural number. -/
def nat (n : Nat) : Json := .number (toString n)

/-- An object with the given members. -/
def obj (members : List (String × Json)) : Json :=
  .object (members.map (fun member => (some member.1, member.2)))

/-- A member that is left out if there is no value. -/
def member? (key : String) (value : Option Json) : List (String × Json) :=
  match value with
  | none => []
  | some value => [(key, value)]

mutual

/-- How many arrays and objects are open at the deepest place. -/
def depth : Json → Nat
  | .array items => depthItems items + 1
  | .object members => depthMembers members + 1
  | _ => 0

/-- The greatest depth of the items of an array. -/
def depthItems : List Json → Nat
  | [] => 0
  | value :: rest => max value.depth (depthItems rest)

/-- The greatest depth of the members of an object. -/
def depthMembers : List (Option String × Json) → Nat
  | [] => 0
  | (_, value) :: rest => max value.depth (depthMembers rest)

end

end Json

end ContextSets
