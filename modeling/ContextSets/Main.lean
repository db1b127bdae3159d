import ContextSets.CommandLine.Run

/-!
# The command line tool

The thin layer that touches the operating system: files, the environment and the two outputs.
-/

namespace ContextSets

namespace Disk

/-- The fault with a number, which may be given as a negative one. -/
def numbered (number : UInt32) (text : String) : FileFault :=
  .ofNumber (min number (0 - number)).toNat text

/-- The fault of a failed access. -/
def faultOf : IO.Error → FileFault
  | .alreadyExists _ number text => numbered number text
  | .otherError number text => numbered number text
  | .resourceBusy number text => numbered number text
  | .resourceVanished number text => numbered number text
  | .unsupportedOperation number text => numbered number text
  | .hardwareFault number text => numbered number text
  | .unsatisfiedConstraints number text => numbered number text
  | .illegalOperation number text => numbered number text
  | .protocolError number text => numbered number text
  | .timeExpired number text => numbered number text
  | .interrupted _ number text => numbered number text
  | .noFileOrDirectory _ number text => numbered number text
  | .invalidArgument _ number text => numbered number text
  | .permissionDenied _ number text => numbered number text
  | .resourceExhausted _ number text => numbered number text
  | .inappropriateType _ number text => numbered number text
  | .noSuchThing _ number text => numbered number text
  | .unexpectedEof => .other "unexpected end of file"
  | .userError text => .other text

/-- Runs an access to a path and keeps its fault. -/
def access {α : Type} (path : String) (action : IO α) : IO (Except FileFault α) := do
  if !Path.isWhole path then return .error .hasNul
  match ← action.toBaseIO with
  | .ok value => return .ok value
  | .error error => return .error (faultOf error)

/-- What a path leads to. -/
def kind (path : String) : IO FileKind := do
  return match (← (System.mkFilePath [path]).metadata).type with
    | .file => .file
    | .dir => .directory
    | _ => .other

/-- The names in a directory. -/
def list (path : String) : IO (List String) := do
  return ((← (System.mkFilePath [path]).readDir).map (·.fileName)).toList

/-- The files below a directory, found under the given names. Links are not followed, and what cannot
be read is passed over. -/
partial def below (path : String) (enter : String → Bool) (names : List String) :
    IO (List FoundFile) := do
  let found ← ((← (list path).toBaseIO).toOption.getD []).mapM fun name => do
    let inner := Path.join path name
    match ← (System.mkFilePath [inner]).symlinkMetadata.toBaseIO with
    | .error _ => return []
    | .ok data =>
      match data.type with
      | .file => return [⟨names ++ [name], data.byteSize.toNat⟩]
      | .dir => if enter name then below inner enter (names ++ [name]) else return []
      | _ => return []
  return found.flatten

/-- The files below a directory, or the file, at a path. -/
def walk (path : String) (enter : String → Bool) : IO (List FoundFile) := do
  match ← (System.mkFilePath [path]).metadata.toBaseIO with
  | .error _ => return []
  | .ok data =>
    match data.type with
    | .file => return [⟨[], data.byteSize.toNat⟩]
    | .dir => below path enter []
    | _ => return []

/-- The present instant, which is that of a file made just now. -/
def now : IO String := do
  let (_, path) ← IO.FS.createTempFile
  let time := (← path.metadata).modified
  IO.FS.removeFile path
  return Text.instantText time.sec.toNat time.nsec.toNat

/-- The files of the operating system. -/
def files : FileSystem IO where
  kind path := access path (kind path)
  read path := access path (IO.FS.readBinFile path)
  write path bytes := access path (IO.FS.writeBinFile path bytes)
  makeDirectories path := access path (IO.FS.createDirAll path)
  rename source target := access (source ++ target) (IO.FS.rename source target)
  remove path := access path (IO.FS.removeFile path)
  list path := access path (list path)
  walk path enter := walk path enter
  now := now

/-- The directory of the user's settings. -/
def settingsDirectory : IO (Option String) := do
  match (← IO.getEnv "XDG_CONFIG_HOME").filter Path.isAbsolute with
  | some path => return some path
  | none => return (← IO.getEnv "HOME").map (Path.join · ".config")

/-- The world of this process. -/
def world : IO (World IO) := do
  return {
    files := files
    currentDirectory := (← IO.currentDir).toString
    settingsDirectory := ← settingsDirectory
    apiKey := ← IO.getEnv "OPENAI_API_KEY" }

/-- Shows progress; nothing cancels a batch. -/
def monitor : Batch.Monitor IO where
  isCancelled := return false
  report progress := IO.eprint progress.text

end Disk

end ContextSets

open ContextSets in
/-- Carries out a command line. -/
def main (args : List String) : IO UInt32 := do
  let outcome ← CommandLine.run (← Disk.world) Disk.monitor args
  IO.print outcome.output
  IO.eprint outcome.errors
  return outcome.code.toUInt32
