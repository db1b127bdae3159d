import ContextSets.Json.Number
import ContextSets.Json.Value
import ContextSets.Table

/-!
# Reading domain values from JSON

A decoder takes a JSON value to a domain value, or refuses it. A record is an object with known
members; it may also be an array of its members in order, of which the last may be missing.
-/

namespace ContextSets.Json

/-- A way to read a domain value. -/
abbrev Decoder (α : Type) := Json → Option α

/-- A string that stands for a text. -/
def text? : Decoder String
  | .string text => text
  | _ => none

/-- An array whose items all have one form. -/
def list? {α : Type} (item : Decoder α) : Decoder (List α)
  | .array items => items.mapM item
  | _ => none

/-- A value that may be null. -/
def nullable? {α : Type} (value : Decoder α) : Decoder (Option α)
  | .null => some none
  | json => (value json).map some

/-- A natural number below a bound, written without point and exponent. -/
def natBelow? (bound : Nat) : Decoder Nat
  | .number literal => do
    let n ← if literal.toList.all Char.isDigit then literal.toNat? else none
    if n < bound then some n else none
  | _ => none

/-- A number of 32 bits without sign. -/
def word? (json : Json) : Option UInt32 :=
  (natBelow? UInt32.size json).map UInt32.ofNat

/-- A number in range. -/
def number? : Decoder Number
  | .number literal => Number.ofLiteral? literal
  | _ => none

/-- A number in single precision. -/
def single? : Decoder Float32 := fun json =>
  (number? json).map Number.toSingle

mutual

/-- Whether all strings in a value stand for texts and all its numbers are in range. -/
def isPlain : Json → Bool
  | .number literal => (Number.ofLiteral? literal).isSome
  | .string text => text.isSome
  | .array items => plainItems items
  | .object members => plainMembers members
  | _ => true

/-- Whether all items are plain. -/
def plainItems : List Json → Bool
  | [] => true
  | value :: rest => value.isPlain && plainItems rest

/-- Whether all members and their keys are plain. -/
def plainMembers : List (Option String × Json) → Bool
  | [] => true
  | (key, value) :: rest => key.isSome && value.isPlain && plainMembers rest

end

/-- The values of the known members of an object. Unknown members are passed over, but a known one
may not be repeated, and every key has to be a text. -/
def members? (known : List String) : Decoder (List (Option Json))
  | .object members =>
    if members.all (·.1.isSome) then
      known.mapM fun key =>
        match members.filter (·.1 == some key) with
        | [] => some none
        | [(_, value)] => some (some value)
        | _ => none
    else none
  | _ => none

/-- The values of the known members of a record, as an object or as an array. -/
def record? (known : List String) : Decoder (List (Option Json))
  | .array items =>
    if items.length ≤ known.length then
      some (items.map some ++ List.replicate (known.length - items.length) none)
    else none
  | json => members? known json

/-- A member that has to be there. -/
def required {α : Type} (value : Decoder α) (member : Option Json) : Option α :=
  member.bind value

/-- A member that may be missing or null. -/
def optional {α : Type} (value : Decoder α) (member : Option Json) : Option (Option α) :=
  match member with
  | none => some none
  | some json => nullable? value json

/-- A list that is empty when it is missing. -/
def orEmpty {α : Type} (item : Decoder α) (member : Option Json) : Option (List α) :=
  match member with
  | none => some []
  | some json => list? item json

/-- One of several words, as a string or as the only key of an object, with null for its value. -/
def word {α : Type} (named? : String → Option α) : Decoder α
  | .string (some text) => named? text
  | .object [(some text, .null)] => named? text
  | _ => none

/-- An object as a table; of several members with one key the last counts. -/
def table? {α : Type} (value : Decoder α) : Decoder (Table α)
  | .object members => do
    let entries ← members.mapM fun (key, json) => do return (← key, ← value json)
    return Table.ofList entries
  | _ => none

end ContextSets.Json
