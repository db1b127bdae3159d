import ContextSets.Closure

/-!
# Markdown

A closure as a Markdown text: the set and its description, the sets it uses, the files of the closure,
and the workflow and entry points of the set itself.
-/

namespace ContextSets

namespace Markdown

/-- A text with something before it, if there is one. -/
def after (start : String) : Option String → String
  | none => ""
  | some text => start ++ text

/-- The path of a file, or its id if it is not registered. -/
def pathOf (manifest : Manifest) (id : String) : String :=
  match manifest.get? id with
  | some entry => entry.path
  | none => id

/-- Text in the type of code. -/
def code (text : String) : String :=
  "\x60" ++ text ++ "\x60"

/-- A section with a heading and lines; no section if there are no lines. -/
def titled (title : String) (lines : List String) : List String :=
  if lines.isEmpty then [] else ["", "## " ++ title, ""] ++ lines

/-- The line of a used set. -/
def useLine (set : ContextSet) : String :=
  "- " ++ SetName.prefixed set.name ++ after ": " set.description

/-- The line of a function of a file. -/
def functionLine (ref : FunctionRef) : String :=
  "  - " ++ code ref.name ++
    (match ref.line with
      | none => ""
      | some line => " (line " ++ toString line.toNat ++ ")") ++
    after ": " ref.comment

/-- The lines of a file: its path and note, and what is included of it. -/
def fileLines (file : ResolvedFile) : List String :=
  let head := "- " ++ code file.entry.path ++ after ": " file.entry.comment
  match file.inclusion with
  | .whole => [head]
  | .functions refs =>
    [head] ++ (file.comment.toList.map ("  - note: " ++ ·)) ++ refs.map functionLine

/-- The lines of numbered steps. -/
def stepLines (manifest : Manifest) : Nat → List WorkflowStep → List String
  | _, [] => []
  | number, step :: rest =>
    (toString number ++ ". " ++ step.description ++
      (match step.file with
        | none => ""
        | some id => " (" ++ code (pathOf manifest id) ++ ")")) ::
      stepLines manifest (number + 1) rest

/-- The line of an entry point. -/
def entryLine (manifest : Manifest) (entry : EntryPoint) : String :=
  "- " ++ entry.protocol.name ++ " " ++ entry.method ++ after " " entry.identifier ++ ": " ++
    code entry.function ++ " in " ++ code (pathOf manifest entry.file)

/-- The lines of a closure. -/
def lines (manifest : Manifest) (closure : Closure) : List String :=
  let root := closure.root
  ["# " ++ SetName.prefixed root.name] ++
    root.description.toList.flatMap (fun text => ["", text]) ++
    root.mode.toList.flatMap (fun mode => ["", "Processing: " ++ mode.name]) ++
    titled "Uses" (closure.sets.tail.map useLine) ++
    titled "Files" (closure.files.flatMap fileLines) ++
    titled "Workflow" (stepLines manifest 1 root.workflow) ++
    titled "Entry points" (root.entryPoints.map (entryLine manifest))

end Markdown

/-- The Markdown text of a set and its closure. -/
def Repository.markdown (repo : Repository) (name : String) : Except SetError String := do
  let closure ← repo.closure name
  return String.join ((Markdown.lines repo.manifest closure).map (· ++ "\n"))

end ContextSets
