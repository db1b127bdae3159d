import ContextSets.Files.Path
import ContextSets.Pattern
import ContextSets.Ranking.Config
import ContextSets.Text.Lowercase

/-!
# Roles of files

What a found file is to a query: configuration, an entry point, core logic or a helper, judged by its
path, some cues in its text, its score and its rank.
-/

namespace ContextSets

/-- The role of a file. -/
inductive Role where
  | entryPoint
  | coreLogic
  | helper
  | config
  | unrelated
deriving DecidableEq, Repr

namespace Role

/-- The name of a role. -/
def name : Role → String
  | entryPoint => "entry-point"
  | coreLogic => "core-logic"
  | helper => "helper"
  | config => "config"
  | unrelated => "unrelated"

/-- Extensions of configuration files. -/
def configExtensions : List String :=
  ["json", "yaml", "yml", "toml", "ini", "cfg", "conf", "env", "properties", "plist"]

/-- Names of configuration files. -/
def configNames : List String :=
  ["dockerfile", "makefile", "cargo.lock", "package-lock.json", ".env", ".gitignore",
    ".editorconfig"]

/-- Names of entry points without what follows the first dot. -/
def entryStems : List String :=
  ["main", "index", "app", "server", "cli", "routes", "router", "handler", "handlers", "controller",
    "controllers", "api", "endpoints"]

/-- Directories of entry points. -/
def entryDirectories : List String :=
  ["routes", "controllers", "handlers", "pages", "endpoints", "cmd", "bin", "api"]

/-- Directories of helpers. -/
def helperDirectories : List String :=
  ["util", "utils", "helper", "helpers", "common", "shared", "support", "lib"]

section Cues

open Pattern

/-- Texts that suggest that a file can be reached from outside. -/
def entryCues : List Pattern :=
  [char '.' ++ words ["get", "post", "put", "patch", "delete", "route"] ++ gap ++ char '(' ++ gap ++
      oneOf "\x27\x22\x60" ++ char '/',
    char '@' ++ words ["Get", "Post", "Put", "Patch", "Delete", "RequestMapping", "GetMapping",
      "PostMapping", "app.route", "router."],
    wordEdge ++ exactly "fn" ++ space ++ exactly "main" ++ gap ++ char '(',
    wordEdge ++ exactly "func" ++ space ++ exactly "main" ++ gap ++ char '(',
    exactly "if" ++ space ++ exactly "__name__" ++ gap ++ exactly "==" ++ gap ++
      oneOf "\x27\x22" ++ exactly "__main__" ++ oneOf "\x27\x22",
    wordEdge ++ exactly "public" ++ space ++ exactly "static" ++ space ++ exactly "void" ++ space ++
      exactly "main" ++ gap ++ char '(',
    exactly "addEventListener" ++ gap ++ char '(',
    wordEdge ++ exactly "createServer" ++ gap ++ char '(']

end Cues

/-- The name of a file in lower case; a path without a name stands for itself. -/
def fileName (path : String) : String :=
  Text.lowerAscii ((Path.fileName? path).getD path)

/-- The directories of a path in lower case. -/
def directories (path : String) : List String :=
  (Text.splitBy (· == '/') path.toList).dropLast.map fun part =>
    Text.lowerAscii (String.ofList part)

/-- A name up to its first dot. -/
def stem (name : String) : String :=
  String.ofList (name.toList.takeWhile (· != '.'))

/-- Whether a text occurs in another. -/
def mentions (part whole : String) : Bool :=
  Text.occursIn part.toList whole.toList

/-- Whether a path names a configuration file. -/
def isConfigFile (path : String) : Bool :=
  let name := fileName path
  configNames.contains name || ".env".toList.isPrefixOf name.toList ||
    mentions "config" name || mentions "settings" name ||
    (Path.extension? name).any configExtensions.contains

/-- Whether a path or a text suggests an entry from outside. -/
def isEntryPoint (path content : String) : Bool :=
  entryStems.contains (stem (fileName path)) ||
    (directories path).any entryDirectories.contains ||
    entryCues.any (·.isIn content.toList)

/-- Whether a path looks like a collection of helpers. -/
def isHelperPath (path : String) : Bool :=
  let stem := stem (fileName path)
  mentions "util" stem || mentions "helper" stem ||
    (directories path).any helperDirectories.contains

/-- The role of a file with a score and a rank, counted from zero. -/
def ofFile (config : RankerConfig) (path content : String) (score : Float32) (rank : Nat) : Role :=
  if score < config.unrelatedBelow then unrelated
  else if isConfigFile path then .config
  else if isEntryPoint path content then entryPoint
  else if rank < config.coreCount && config.coreFrom ≤ score then coreLogic
  else if isHelperPath path then helper
  else if config.coreFrom ≤ score then coreLogic
  else helper

end Role

end ContextSets
