import ContextSets.Command.Basic
import ContextSets.CommandLine.Arguments

/-!
# Forms of commands

Which options and words every command takes, and the command that they make. Two options, for the
configuration file and for the root, may stand anywhere.
-/

namespace ContextSets.CommandLine

/-- A command by its name, with its own options and the number of its words, and how its arguments are
read. -/
structure CommandForm where
  name : String
  options : List OptionForm
  words : WordRule
  read : Given → Option Command

/-- The option for the configuration file. -/
def configOption : OptionForm := { name := "config", kind := .value .path }

/-- The option for the root of the project. -/
def rootOption : OptionForm := { name := "root", kind := .value .path }

/-- The option that asks for help. -/
def helpOption : OptionForm := { name := "help", letter := some 'h', kind := .stop .help }

/-- The option that asks for the version. -/
def versionOption : OptionForm := { name := "version", letter := some 'V', kind := .stop .version }

/-- A count in an option. -/
def countOption? (given : Given) (name : String) : Option Nat :=
  (given.value? name).bind count?

/-- The forms in which sets are handed on, by their names. -/
def exportFormats : List (String × ExportFormat) :=
  [("json", .json), ("markdown", .markdown)]

/-- The form in which sets are handed on, JSON unless asked for otherwise. -/
def exportFormat (given : Given) : ExportFormat :=
  ((given.value? "format").bind (exportFormats.lookup ·)).getD .json

/-- Reads a command with exactly one word. -/
def readOne (make : String → Command) (given : Given) : Option Command :=
  match given.words with
  | [a] => some (make a)
  | _ => none

/-- Reads a command with exactly two words. -/
def readTwo (make : String → String → Command) (given : Given) : Option Command :=
  match given.words with
  | [a, b] => some (make a b)
  | _ => none

/-- Reads a command with one word and perhaps a second. -/
def readOneOrTwo (make : String → Option String → Command) (given : Given) : Option Command :=
  match given.words with
  | [a] => some (make a none)
  | [a, b] => some (make a (some b))
  | _ => none

/-- Reads a command without words. -/
def readNone (command : Command) (given : Given) : Option Command :=
  if given.words.isEmpty then some command else none

/-- Reads a command that creates a set. -/
def readCreate (given : Given) : Option Command :=
  readOne (.create · (given.value? "description")) given

/-- Reads a command that adds files, at least one. -/
def readAddFiles (given : Given) : Option Command :=
  match given.words with
  | name :: path :: paths => some (.addFiles name (path :: paths))
  | _ => none

/-- Reads a command that narrows a reference to functions. -/
def readRefs (given : Given) : Option Command :=
  match given.words with
  | name :: path :: names => some (.refs name path names (given.value? "comment"))
  | _ => none

/-- Reads a command that hands sets on. -/
def readHandOn (given : Given) : Option Command :=
  some (.handOn given.words.head? (exportFormat given) (given.value? "output"))

/-- Reads a command that searches. -/
def readSearch (given : Given) : Option Command :=
  let usual : SearchOptions := {}
  let options : SearchOptions :=
    { limit := countOption? given "limit"
      json := given.has "json"
      addTo := given.value? "add-to"
      top := (countOption? given "top").getD usual.top }
  readOne (.search · options) given

/-- The options of the command that hands sets on. -/
def handOnOptions : List OptionForm :=
  [{ name := "format", kind := .value (.choice (exportFormats.map Prod.fst)) },
    { name := "output", letter := some 'o', kind := .value .path }]

/-- The options of the command that searches. -/
def searchOptions : List OptionForm :=
  [{ name := "limit", kind := .value .count }, { name := "json", kind := .flag },
    { name := "add-to" }, { name := "top", kind := .value .count }]

/-- All commands. -/
def commandForms : List CommandForm :=
  [⟨"init", [], .atMost 0, readNone .init⟩,
    ⟨"create", [{ name := "description" }], .atMost 1, readCreate⟩,
    ⟨"describe", [], .atMost 2, readOneOrTwo .describe⟩,
    ⟨"delete", [], .atMost 1, readOne .delete⟩,
    ⟨"rename", [], .atMost 2, readTwo .rename⟩,
    ⟨"add-file", [], .any, readAddFiles⟩,
    ⟨"remove-file", [], .atMost 2, readTwo .removeFile⟩,
    ⟨"refs", [{ name := "comment" }], .any, readRefs⟩,
    ⟨"comment", [], .atMost 2, readOneOrTwo .comment⟩,
    ⟨"use", [], .atMost 2, readTwo .addUse⟩,
    ⟨"unuse", [], .atMost 2, readTwo .removeUse⟩,
    ⟨"list", [], .atMost 0, readNone .list⟩,
    ⟨"show", [], .atMost 1, readOne .display⟩,
    ⟨"export", handOnOptions, .atMost 1, readHandOn⟩,
    ⟨"tokens", [], .atMost 1, readOne .tokens⟩,
    ⟨"prune", [], .atMost 0, readNone .prune⟩,
    ⟨"search", searchOptions, .atMost 1, readSearch⟩,
    ⟨"embed", [], .atMost 0, readNone .embed⟩]

/-- What a command line asks for. -/
structure Invocation where
  config : Option String
  root : Option String
  command : Command
deriving DecidableEq, Repr

/-- What comes of asking for help on commands: there is help on each of them, and on help itself. -/
def helpOn : List String → Fault
  | [] => .help
  | [name] => if name = "help" || commandForms.any (·.name == name) then .help else .wrong
  | _ => .wrong

/-- Reads a command line. An option that may stand anywhere counts more behind the name of the
command. What has been put off before the command is looked at in the end. -/
def parse (args : List String) : Except Fault Invocation := do
  let shared := [configOption, rootOption, helpOption]
  let before ← tell (shared ++ [versionOption]) .command .nothing args
  match before.rest with
  | [] => throw .wrong
  | name :: args =>
    if name = "help" then throw (helpOn args)
    match commandForms.find? (·.name == name) with
    | none => throw .wrong
    | some form =>
      let behind ← tell (form.options ++ shared) form.words .nothing args
      match form.read behind with
      | none => throw .wrong
      | some command =>
        let before ← before.settled
        return {
          config := behind.value? "config" <|> before.value? "config"
          root := behind.value? "root" <|> before.value? "root"
          command := command }

end ContextSets.CommandLine
