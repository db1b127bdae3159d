/-!
# Occurrences of one text in another
-/

namespace ContextSets.Text

/-- Whether a text occurs in another. -/
def occursIn (part : List Char) : List Char → Bool
  | [] => part.isEmpty
  | c :: rest => part.isPrefixOf (c :: rest) || occursIn part rest

/-- How often a text starts in another, after `skip` characters and without overlap, on top of a
count. -/
def countFrom (part : List Char) (count : Nat) : Nat → List Char → Nat
  | _, [] => count
  | skip + 1, _ :: rest => countFrom part count skip rest
  | 0, c :: rest =>
    if part.isPrefixOf (c :: rest) then countFrom part (count + 1) (part.length - 1) rest
    else countFrom part count 0 rest

/-- How often a text occurs in another without overlap. The empty text occurs around every
character. -/
def occurrences (part whole : List Char) : Nat :=
  if part.isEmpty then whole.length + 1 else countFrom part 0 0 whole

/-- The parts of a text between characters that pass a test, behind the given characters of a part,
the nearest first. -/
def splitFrom (test : Char → Bool) (part : List Char) : List Char → List (List Char)
  | [] => [part.reverse]
  | c :: rest =>
    if test c then part.reverse :: splitFrom test [] rest else splitFrom test (c :: part) rest

/-- The parts of a text between characters that pass a test. There is always at least one. -/
def splitBy (test : Char → Bool) (text : List Char) : List (List Char) :=
  splitFrom test [] text

end ContextSets.Text
