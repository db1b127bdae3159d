import ContextSets.Toml.Value

/-!
# Reading settings from TOML

A section of settings is a table with known keys; it may also be an array of their values in order, of
which the last may be missing. Unknown keys are passed over, and what is missing keeps its usual value.
-/

namespace ContextSets.Toml

/-- A way to read a setting. -/
abbrev Decoder (α : Type) := Toml → Option α

/-- A string. -/
def text? : Decoder String
  | .string text => some text
  | _ => none

/-- A string that stands for something that may be missing. -/
def someText? : Decoder (Option String) := fun value => (text? value).map some

/-- A list of strings. -/
def texts? : Decoder (List String)
  | .array items => items.mapM text?
  | _ => none

/-- A whole number of 64 bits without sign. -/
def nat? : Decoder Nat
  | .integer value => if 0 ≤ value && value < Int.ofNat UInt64.size then some value.toNat else none
  | _ => none

/-- A number in single precision. A whole number of 64 bits, with a sign or without, is one too. -/
def single? : Decoder Float32
  | .integer value =>
    if Int64.minValue.toInt ≤ value && value < Int.ofNat UInt64.size then some (Float32.ofInt value)
    else none
  | .float value => some value.toFloat32
  | _ => none

/-- One of several words, as a string or as the only key of a table, with nothing for its value. -/
def word? {α : Type} (named? : String → Option α) : Decoder α
  | .string text => named? text
  | .table _ [(text, .table _ [])] => named? text
  | .table _ [(text, .array [])] => named? text
  | _ => none

/-- The values of the known keys of a section. A date has none of them. -/
def section? (known : List String) : Decoder (List (Option Toml))
  | .table _ entries => some (known.map fun key => find? key entries)
  | .tables elements => some (inOrder (elements.map (.table .header)))
  | .array items => some (inOrder items)
  | .dateTime => some (inOrder [])
  | _ => none
where
  /-- The values in an array, as far as there are any. -/
  inOrder (items : List Toml) : List (Option Toml) :=
    (items.take known.length).map some ++ List.replicate (known.length - items.length) none

/-- A setting, or its usual value if it is missing. -/
def orUsual {α : Type} (value? : Decoder α) (usual : α) (setting : Option Toml) : Option α :=
  match setting with
  | none => some usual
  | some value => value? value

end ContextSets.Toml
