import ContextSets.Declaration.Forms
import ContextSets.Text.Blank
import ContextSets.Text.Lines

/-!
# Declarations of a file

A file is analyzed line by line: a line that is neither blank nor a comment declares the names that
the forms of its language capture. This is a heuristic and no parser; a file of an unknown language
declares nothing.
-/

namespace ContextSets

/-- A declared name and its line, counted from one. -/
structure Declaration where
  name : String
  line : Nat
deriving DecidableEq, Repr

namespace Declaration

/-- Words that stand where a name may stand but declare nothing. -/
def keywords : List String :=
  ["if", "else", "for", "foreach", "while", "do", "switch", "case", "catch", "try", "return", "new",
    "throw", "function", "await", "yield", "delete", "typeof", "sizeof", "using", "lock", "elif",
    "when", "match", "with", "super", "this"]

/-- Declarations come in the order of their lines, and on a line in that of their names. -/
def precedes (a b : Declaration) : Bool :=
  a.line < b.line || (a.line == b.line && a.name ≤ b.name)

/-- Each declaration once, in order. -/
def arrange (declarations : List Declaration) : List Declaration :=
  declarations.eraseDups.mergeSort precedes

/-- The text captured under a label. -/
def captured? (progress : Progress) (label : String) : Option String :=
  (progress.captures.find? (·.label == label)).map fun capture => String.ofList capture.text

/-- The name that a form finds in a line. -/
def nameIn? (form : Pattern) (line : List Char) : Option String := do
  let found ← form.search line
  let name ← captured? found Form.nameLabel
  if keywords.contains name || (captured? found Form.leadLabel).any keywords.contains then none
  else some name

/-- Whether a line is blank or begins like a comment. -/
def isPassedOver (language : Language) (line : List Char) : Bool :=
  let start := Text.trimLeft line
  start.isEmpty || language.commentMarks.any (·.toList.isPrefixOf start)

/-- What the forms find in lines, of which the first has the given number. -/
def inLines (language : Language) (forms : List Pattern) : Nat → List (List Char) → List Declaration
  | _, [] => []
  | number, line :: rest =>
    (if isPassedOver language line then []
      else (forms.filterMap (nameIn? · line)).map fun name => ⟨name, number⟩) ++
      inLines language forms (number + 1) rest

end Declaration

/-- The declarations of a file. -/
structure Analysis where
  functions : List Declaration
  classes : List Declaration
deriving DecidableEq, Repr

namespace Analysis

/-- No declarations. -/
def empty : Analysis := ⟨[], []⟩

/-- Functions and classes together. -/
def declarations (analysis : Analysis) : List Declaration :=
  analysis.functions ++ analysis.classes

/-- Whether nothing is declared. -/
def isEmpty (analysis : Analysis) : Bool :=
  analysis.functions.isEmpty && analysis.classes.isEmpty

/-- How many bytes of a file are analyzed unless something else is asked for. -/
def defaultLimit : Nat := 1024 * 1024

/-- The declarations in the first bytes of a text, in the language of the path. -/
def ofText (limit : Nat) (path text : String) : Analysis :=
  match Language.ofPath? path with
  | none => empty
  | some language =>
    let lines := Text.lines (Text.cut limit text.toList)
    let find (forms : List Pattern) : List Declaration :=
      Declaration.arrange (Declaration.inLines language forms 1 lines)
    ⟨find (Form.functions language), find (Form.classes language)⟩

end Analysis

end ContextSets
