import ContextSets.Text.Blank
import ContextSets.Text.Letter

/-!
# Names of sets

A set is stored under its bare name. Outside, the name carries the prefix "context:", and a name that
comes in may carry the prefix any number of times.
-/

namespace ContextSets.SetName

/-- What stands before a name outside the repository. -/
def label : String := "context:"

/-- Takes every leading prefix off a name. -/
def bareChars : List Char → List Char
  | 'c' :: 'o' :: 'n' :: 't' :: 'e' :: 'x' :: 't' :: ':' :: rest => bareChars rest
  | name => name

/-- The name without prefixes. -/
def bare (name : String) : String :=
  String.ofList (bareChars name.toList)

/-- The name with exactly one prefix. -/
def prefixed (name : String) : String :=
  label ++ bare name

/-- What is wrong with a bare name. -/
inductive Fault where
  | empty
  | startsWithoutLetter
  | hasBlank
deriving DecidableEq, Repr

/-- The reason in words. -/
def Fault.message : Fault → String
  | .empty => "name is empty"
  | .startsWithoutLetter => "name must start with a letter"
  | .hasBlank => "name must not contain whitespace"

/-- A bare name starts with a letter and contains no blank. -/
def fault? (name : String) : Option Fault :=
  match name.toList with
  | [] => some .empty
  | first :: rest =>
    if !Text.isLetter first then some .startsWithoutLetter
    else if (first :: rest).any Text.isBlank then some .hasBlank
    else none

end ContextSets.SetName
