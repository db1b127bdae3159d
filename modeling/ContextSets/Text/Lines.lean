/-!
# Lines and cuts

The lines of a text and its longest start within a number of bytes.
-/

namespace ContextSets.Text

/-- The lines of a text behind the given characters of a line, the nearest first. A line ends before a
line feed, and before a carriage return in front of that. Nothing follows a final line feed. -/
def linesFrom (line : List Char) : List Char → List (List Char)
  | [] => if line.isEmpty then [] else [line.reverse]
  | c :: rest =>
    if c = '\n' then
      (match line with
        | '\r' :: line => line.reverse
        | line => line.reverse) :: linesFrom [] rest
    else linesFrom (c :: line) rest

/-- The lines of a text. -/
def lines (text : List Char) : List (List Char) :=
  linesFrom [] text

/-- How many characters at the start of a text fit into a number of bytes, on top of a count. -/
def fitting (count : Nat) : Nat → List Char → Nat
  | _, [] => count
  | room, c :: rest =>
    if c.utf8Size ≤ room then fitting (count + 1) (room - c.utf8Size) rest else count

/-- The longest start of a text within a number of bytes. -/
def cut (room : Nat) (text : List Char) : List Char :=
  text.take (fitting 0 room text)

end ContextSets.Text
