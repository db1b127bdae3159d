/-!
# TOML values

The value that a TOML document denotes. A table remembers how it came about, because that decides in
what ways later lines may still add to it.
-/

namespace ContextSets

/-- How a table came about: by a header of its own, as a step on the way of a header to a deeper
table, by a dotted key, or written out in braces. -/
inductive TableOrigin where
  | header
  | way
  | dotted
  | inline
deriving DecidableEq, Repr

/-- A TOML value. `tables` are the tables of repeated headers in double brackets. Dates and times are
not told apart. -/
inductive Toml where
  | string (text : String)
  | integer (value : Int)
  | float (value : Float)
  | boolean (value : Bool)
  | dateTime
  | array (items : List Toml)
  | tables (elements : List (List (String × Toml)))
  | table (origin : TableOrigin) (entries : List (String × Toml))
deriving Inhabited

namespace Toml

/-- The value of a key among entries. -/
def find? (key : String) : List (String × Toml) → Option Toml
  | [] => none
  | (k, value) :: rest => if k = key then some value else find? key rest

/-- Gives a key a value, in place of the one it has or behind all others. -/
def put (key : String) (value : Toml) : List (String × Toml) → List (String × Toml)
  | [] => [(key, value)]
  | (k, old) :: rest => if k = key then (k, value) :: rest else (k, old) :: put key value rest

mutual

/-- How many arrays and tables in braces are open at the deepest place. -/
def depth : Toml → Nat
  | .array items => depthItems items + 1
  | .table .inline entries => depthEntries entries + 1
  | .table _ entries => depthEntries entries
  | _ => 0

/-- The greatest depth of items. -/
def depthItems : List Toml → Nat
  | [] => 0
  | value :: rest => max value.depth (depthItems rest)

/-- The greatest depth of the values of entries. -/
def depthEntries : List (String × Toml) → Nat
  | [] => 0
  | (_, value) :: rest => max value.depth (depthEntries rest)

end

end Toml

end ContextSets
