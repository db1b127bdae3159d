import ContextSets.Text.Printable

/-!
# Quoted text

A text between quotation marks, in which every character that cannot be shown on its own is written
as an escape.
-/

namespace ContextSets.Text

/-- A number in lowercase hexadecimal digits. -/
def hex (n : Nat) : List Char :=
  Nat.toDigits 16 n

/-- How a character is written between quotation marks. -/
def quotedChar (c : Char) : List Char :=
  match c with
  | '\x00' => ['\\', '0']
  | '\t' => ['\\', 't']
  | '\n' => ['\\', 'n']
  | '\r' => ['\\', 'r']
  | '"' => ['\\', '"']
  | '\\' => ['\\', '\\']
  | c => if isPrintable c then [c] else ['\\', 'u', '\x7b'] ++ hex c.toNat ++ ['\x7d']

/-- A text in quotation marks. -/
def quoted (text : String) : String :=
  String.ofList (['"'] ++ text.toList.flatMap quotedChar ++ ['"'])

end ContextSets.Text
