import ContextSets.Json.Value
import ContextSets.Text.Quoted

/-!
# Printing JSON

JSON text on one line, or indented by two blanks per level. Of the characters of a string only quotes,
backslashes and control characters are escaped.
-/

namespace ContextSets.Json

/-- How a character of a string is written. -/
def escaped (c : Char) : List Char :=
  match c with
  | '"' => ['\\', '"']
  | '\\' => ['\\', '\\']
  | '\x08' => ['\\', 'b']
  | '\x0c' => ['\\', 'f']
  | '\n' => ['\\', 'n']
  | '\r' => ['\\', 'r']
  | '\t' => ['\\', 't']
  | c =>
    if c.toNat < 0x20 then
      ['\\', 'u', '0', '0', Nat.digitChar (c.toNat / 16), Nat.digitChar (c.toNat % 16)]
    else [c]

/-- A string in quotes. One that stands for no text is written as half a surrogate pair. -/
def printString : Option String → List Char
  | some text => ['"'] ++ text.toList.flatMap escaped ++ ['"']
  | none => ['"', '\\', 'u', 'd', '8', '0', '0', '"']

mutual

/-- A value on one line without blanks. -/
def printCompact : Json → List Char
  | .null => ['n', 'u', 'l', 'l']
  | .bool true => ['t', 'r', 'u', 'e']
  | .bool false => ['f', 'a', 'l', 's', 'e']
  | .number literal => literal.toList
  | .string text => printString text
  | .array items => ['['] ++ compactItems items ++ [']']
  | .object members => ['{'] ++ compactMembers members ++ ['}']

/-- Items with commas between them. -/
def compactItems : List Json → List Char
  | [] => []
  | [value] => value.printCompact
  | value :: rest => value.printCompact ++ [','] ++ compactItems rest

/-- Members with commas between them. -/
def compactMembers : List (Option String × Json) → List Char
  | [] => []
  | [(key, value)] => printString key ++ [':'] ++ value.printCompact
  | (key, value) :: rest =>
    printString key ++ [':'] ++ value.printCompact ++ [','] ++ compactMembers rest

end

/-- A new line at a level of indentation. -/
def newLine (level : Nat) : List Char :=
  '\n' :: List.replicate (2 * level) ' '

mutual

/-- A value with each item and member on a line of its own, one level further in. -/
def printPretty (level : Nat) : Json → List Char
  | .null => ['n', 'u', 'l', 'l']
  | .bool true => ['t', 'r', 'u', 'e']
  | .bool false => ['f', 'a', 'l', 's', 'e']
  | .number literal => literal.toList
  | .string text => printString text
  | .array [] => ['[', ']']
  | .array (value :: rest) =>
    ['['] ++ newLine (level + 1) ++ prettyItems (level + 1) (value :: rest) ++ newLine level ++ [']']
  | .object [] => ['{', '}']
  | .object (member :: rest) =>
    ['{'] ++ newLine (level + 1) ++ prettyMembers (level + 1) (member :: rest) ++ newLine level ++
      ['}']

/-- Items on lines of their own. -/
def prettyItems (level : Nat) : List Json → List Char
  | [] => []
  | [value] => value.printPretty level
  | value :: rest => value.printPretty level ++ [','] ++ newLine level ++ prettyItems level rest

/-- Members on lines of their own. -/
def prettyMembers (level : Nat) : List (Option String × Json) → List Char
  | [] => []
  | [(key, value)] => printString key ++ [':', ' '] ++ value.printPretty level
  | (key, value) :: rest =>
    printString key ++ [':', ' '] ++ value.printPretty level ++ [','] ++ newLine level ++
      prettyMembers level rest

end

/-- The text of a value on one line. -/
def compact (value : Json) : String :=
  String.ofList value.printCompact

/-- The text of a value on indented lines. -/
def pretty (value : Json) : String :=
  String.ofList (value.printPretty 0)

end ContextSets.Json
