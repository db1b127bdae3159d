import ContextSets.Command.Embed
import ContextSets.Command.Reports

/-!
# Running commands
-/

namespace ContextSets

/-- Runs a command on a project and answers with a text. -/
def Command.run {m : Type → Type} [Monad m] (world : World m) (monitor : Batch.Monitor m)
    (config : Config) (project : Project) (command : Command) : Task m String :=
  let files := world.files
  match command with
  | .init => project.start files
  | .create name description => project.change files (Change.create name description)
  | .describe name description => project.change files (Change.describe name description)
  | .delete name => project.change files (Change.delete name)
  | .rename name newName => project.change files (Change.rename name newName)
  | .addFiles name paths => project.change files (Change.addFiles project files name paths)
  | .removeFile name path => project.change files (Change.removeFile name path)
  | .refs name path names note =>
    project.change files (Change.refs project files name path names note)
  | .comment path note => project.change files (Change.comment path note)
  | .addUse source target => project.change files (Change.addUse source target)
  | .removeUse source target => project.change files (Change.removeUse source target)
  | .list => project.list files
  | .display name => project.display files name
  | .handOn name format output => project.handOn files name format output
  | .tokens name => project.estimate files name
  | .prune => project.change files Change.prune
  | .search query options => project.search world config query options
  | .embed => project.embed world monitor config.embedding

end ContextSets
