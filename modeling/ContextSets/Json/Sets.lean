import ContextSets.ContextSet
import ContextSets.Json.Decoder
import ContextSets.Manifest

/-!
# Context sets in JSON

The JSON form of the parts of a set. A reference to a whole file is the id alone; a reference to some
functions is an object. Members without a value are left out.
-/

namespace ContextSets

open Json (Decoder)

namespace FunctionRef

/-- The JSON form of a function reference. -/
def toJson (ref : FunctionRef) : Json :=
  .obj ([("name", .text ref.name)] ++ Json.member? "comment" (ref.comment.map .text) ++
    Json.member? "lineIndex" (ref.line.map fun n => .nat n.toNat))

/-- Reads a function reference. -/
def ofJson? : Decoder FunctionRef := fun json => do
  match ← Json.record? ["name", "comment", "lineIndex"] json with
  | [name, comment, line] =>
    return {
      name := ← Json.required Json.text? name
      comment := ← Json.optional Json.text? comment
      line := ← Json.optional Json.word? line }
  | _ => none

end FunctionRef

namespace FileReference

/-- The JSON form of a file reference. -/
def toJson : FileReference → Json
  | .whole id => .text id
  | .part id first others comment =>
    .obj ([("fileRef", .text id),
      ("functionRefs", .array ((first :: others).map FunctionRef.toJson))] ++
      Json.member? "comment" (comment.map .text))

/-- How many arrays and objects may be open around any place in a reference. -/
def depthLimit : Nat := 127

/-- Reads a file reference inside the given number of open arrays and objects. An object without
functions refers to the whole file. -/
def ofJson? (opened : Nat) : Decoder FileReference := fun json =>
  match json with
  | .string text => text.map .whole
  | json => do
    if depthLimit < opened + json.depth ∨ !json.isPlain then none
    match ← Json.members? ["fileRef", "functionRefs", "comment"] json with
    | [id, refs, comment] =>
      let id ← Json.required Json.text? id
      let refs ← Json.orEmpty FunctionRef.ofJson? refs
      let comment ← Json.optional Json.text? comment
      return ofRefs id refs comment
    | _ => none

end FileReference

namespace WorkflowStep

/-- The JSON form of a step. -/
def toJson (step : WorkflowStep) : Json :=
  .obj ([("description", .text step.description)] ++
    Json.member? "fileRef" (step.file.map .text))

/-- Reads a step. -/
def ofJson? : Decoder WorkflowStep := fun json => do
  match ← Json.record? ["description", "fileRef"] json with
  | [description, file] =>
    return {
      description := ← Json.required Json.text? description
      file := ← Json.optional Json.text? file }
  | _ => none

end WorkflowStep

namespace EntryPoint

/-- The JSON form of an entry point. -/
def toJson (entry : EntryPoint) : Json :=
  .obj ([("fileRef", .text entry.file), ("function", .text entry.function),
    ("protocol", .text entry.protocol.name), ("method", .text entry.method)] ++
    Json.member? "identifier" (entry.identifier.map .text))

/-- Reads an entry point. -/
def ofJson? : Decoder EntryPoint := fun json => do
  match ← Json.record? ["fileRef", "function", "protocol", "method", "identifier"] json with
  | [file, function, protocol, method, identifier] =>
    return {
      file := ← Json.required Json.text? file
      function := ← Json.required Json.text? function
      protocol := ← Json.required (Json.word Protocol.named?) protocol
      method := ← Json.required Json.text? method
      identifier := ← Json.optional Json.text? identifier }
  | _ => none

end EntryPoint

namespace ProcessingMode

/-- The JSON form of the behaviour of a set with a processing mode. -/
def toJson (mode : ProcessingMode) : Json :=
  .obj [("processing", .obj [("mode", .text mode.name)])]

/-- Reads the processing mode from the behaviour of a set. -/
def ofJson? : Decoder ProcessingMode := fun json => do
  match ← Json.record? ["processing"] json with
  | [processing] =>
    match ← Json.required (Json.record? ["mode"]) processing with
    | [mode] => Json.required (Json.word named?) mode
    | _ => none
  | _ => none

end ProcessingMode

namespace FileEntry

/-- The JSON form of a registered file. -/
def toJson (entry : FileEntry) : Json :=
  .obj ([("path", .text entry.path)] ++ Json.member? "comment" (entry.comment.map .text))

/-- Reads a registered file. -/
def ofJson? : Decoder FileEntry := fun json => do
  match ← Json.record? ["path", "comment"] json with
  | [path, comment] =>
    return {
      path := ← Json.required Json.text? path
      comment := ← Json.optional Json.text? comment }
  | _ => none

end FileEntry

namespace SetContent

/-- The members of the JSON form of what a set holds. -/
def members (set : SetContent) : List (String × Json) :=
  Json.member? "description" (set.description.map .text) ++
    [("files", .array (set.files.map FileReference.toJson)),
      ("workflows", .array (set.workflow.map WorkflowStep.toJson)),
      ("uses", .array (set.uses.map .text)),
      ("entryPoints", .array (set.entryPoints.map EntryPoint.toJson))] ++
    Json.member? "systemBehavior" (set.mode.map ProcessingMode.toJson)

/-- The JSON form of what a set holds. -/
def toJson (set : SetContent) : Json :=
  .obj set.members

/-- The keys of the members, in their order. -/
def keys : List String :=
  ["description", "files", "workflows", "uses", "entryPoints", "systemBehavior"]

/-- Reads what a set holds from its members, inside the given number of open arrays and objects. -/
def ofMembers? (opened : Nat) : List (Option Json) → Option SetContent
  | [description, files, workflow, uses, entryPoints, mode] => do
    return {
      description := ← Json.optional Json.text? description
      files := ← Json.orEmpty (FileReference.ofJson? (opened + 1)) files
      workflow := ← Json.orEmpty WorkflowStep.ofJson? workflow
      uses := ← Json.orEmpty Json.text? uses
      entryPoints := ← Json.orEmpty EntryPoint.ofJson? entryPoints
      mode := ← Json.optional ProcessingMode.ofJson? mode }
  | _ => none

/-- Reads what a set holds, inside the given number of open arrays and objects. -/
def ofJson? (opened : Nat) : Decoder SetContent := fun json => do
  ofMembers? (opened + 1) (← Json.record? keys json)

end SetContent

namespace ContextSet

/-- The JSON form of a set with its bare name. -/
def toJson (set : ContextSet) : Json :=
  .obj (("name", .text set.name) :: set.members)

/-- Reads a set with its name. -/
def ofJson? : Decoder ContextSet := fun json => do
  match ← Json.record? ("name" :: SetContent.keys) json with
  | name :: members =>
    let name ← Json.required Json.text? name
    let content ← SetContent.ofMembers? 1 members
    return { content with name := name }
  | [] => none

end ContextSet

end ContextSets
